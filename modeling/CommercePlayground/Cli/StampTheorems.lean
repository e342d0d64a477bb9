/-
CommercePlayground.Cli.StampTheorems — the stamps are the calendar's, and in its order.

The conversion counts in years that begin in March, 400 of them to an era. A day of an
era is so many full centuries, cycles of four years, years and days (`exists_parts`), and
the correction terms find its year (`yearOfEra_eq`). A month begins `(153 m + 2) / 5` days
after March does, which gives the month and the day (`exists_date`).
-/
import CommercePlayground.Cli.Stamp
import Mathlib.Tactic.IntervalCases
import Mathlib.Tactic.Tauto

namespace CommercePlayground.Cli.Stamp

open Lib Calendar

/-! ## Checked arithmetic -/

theorem i64_of {n : Int} (hlow : -9223372036854775808 ≤ n) (hhigh : n ≤ 9223372036854775807) :
    i64 n = some n := if_pos ⟨hlow, hhigh⟩

theorem u64_of {n : Int} (m : Nat) (h : n = m) (hhigh : m ≤ 18446744073709551615) :
    u64 n = some m := by
  unfold u64
  rw [if_pos (by omega), h, Int.toNat_natCast]

theorem bind_of {α β : Type} {x : Option α} {f : α → Option β} {a : α} {r : Option β}
    (hx : x = some a) (hf : f a = r) : x >>= f = r := by
  rw [hx]
  exact hf

/-! ## A day of an era -/

/-- The last day of an era is the one more that its last century has, the last day of a
cycle the one more of its last year. -/
theorem exists_parts {doe : Nat} (h : doe < 146097) : ∃ centuries cycles years doy,
    doe = 36524 * centuries + 1461 * cycles + 365 * years + doy ∧
    centuries ≤ 3 ∧ cycles ≤ 24 ∧ years ≤ 3 ∧ doy ≤ 365 ∧
    (doy = 365 → years = 3 ∧ (cycles = 24 → centuries = 3)) := by
  obtain ⟨c, r, hr, hc, hlast⟩ : ∃ c r, doe = 36524 * c + r ∧ c ≤ 3 ∧
      (r < 36524 ∨ c = 3 ∧ r = 36524) := by
    by_cases hlast : doe = 146096
    · exact ⟨3, 36524, by omega, by omega, by omega⟩
    · exact ⟨doe / 36524, doe % 36524, by omega, by omega, by omega⟩
  obtain ⟨y, d, hd, hy, hday⟩ : ∃ y d, r % 1461 = 365 * y + d ∧ y ≤ 3 ∧
      (d < 365 ∨ y = 3 ∧ d = 365) := by
    by_cases hlast : r % 1461 = 1460
    · exact ⟨3, 365, by omega, by omega, by omega⟩
    · exact ⟨r % 1461 / 365, r % 1461 % 365, by omega, by omega, by omega⟩
  exact ⟨c, r / 1461, y, d, by omega, hc, by omega, hy, by omega, by omega⟩

/-- The corrections for a day of an era: at most one year too many is counted for each. -/
theorem corrections {c f y d doe : Nat} (hc : c ≤ 3) (hf : f ≤ 24) (hy : y ≤ 3) (hd : d ≤ 365)
    (hlast : d = 365 → y = 3 ∧ (f = 24 → c = 3))
    (hdoe : doe = 36524 * c + 1461 * f + 365 * y + d) :
    doe / 36524 = c + doe / 146096 ∧
      ∃ e, doe / 1460 = 25 * c + f + e ∧ (e = 0 ∨ e = 1 ∧ 1460 ≤ 24 * c + f + 365 * y + d) := by
  have hlow : 1461 * f + 365 * y + d < 36524 ∨ c = 3 ∧ doe = 146096 := by
    by_cases hday : d = 365
    · obtain ⟨rfl, hcycle⟩ := hlast hday
      by_cases hf24 : f = 24
      · have := hcycle hf24
        omega
      · omega
    · omega
  constructor
  · rcases hlow with hlow | ⟨rfl, rfl⟩
    · have hzero : doe / 146096 = 0 := by omega
      rw [hzero]
      omega
    · rfl
  · refine ⟨doe / 1460 - (25 * c + f), ?_, ?_⟩
    · omega
    · omega

theorem yearOfEra_eq {c f y d doe : Nat} (hc : c ≤ 3) (hf : f ≤ 24) (hy : y ≤ 3) (hd : d ≤ 365)
    (hlast : d = 365 → y = 3 ∧ (f = 24 → c = 3))
    (hdoe : doe = 36524 * c + 1461 * f + 365 * y + d) :
    yearOfEra doe = some (100 * c + 4 * f + y) := by
  obtain ⟨hcenturies, e, hleaps, hcase⟩ := corrections hc hf hy hd hlast hdoe
  unfold yearOfEra
  refine bind_of (u64_of (doe - doe / 1460) (by omega) (by omega)) ?_
  refine bind_of (u64_of (doe - doe / 1460 + doe / 36524) (by omega) (by omega)) ?_
  refine bind_of (u64_of (doe - doe / 1460 + doe / 36524 - doe / 146096) (by omega) (by omega)) ?_
  refine congrArg some ?_
  rw [hcenturies, hleaps]
  omega

theorem dayOfYear_eq {c f y d doe : Nat} (hc : c ≤ 3) (hf : f ≤ 24) (hy : y ≤ 3) (hd : d ≤ 365)
    (hdoe : doe = 36524 * c + 1461 * f + 365 * y + d) :
    dayOfYear doe (100 * c + 4 * f + y) = some d := by
  have hcycles : (100 * c + 4 * f + y) / 4 = 25 * c + f := by omega
  have hcenturies : (100 * c + 4 * f + y) / 100 = c := by omega
  unfold dayOfYear
  rw [hcycles, hcenturies]
  refine bind_of (u64_of (365 * (100 * c + 4 * f + y)) (by omega) (by omega)) ?_
  refine bind_of (u64_of (365 * (100 * c + 4 * f + y) + (25 * c + f)) (by omega) (by omega)) ?_
  refine bind_of (u64_of (365 * (100 * c + 4 * f + y) + (25 * c + f) - c) (by omega) (by omega)) ?_
  exact u64_of d (by omega) (by omega)

theorem monthAndDay_eq {d : Nat} (hd : d ≤ 365) : monthAndDay d =
    some (if (5 * d + 2) / 153 < 10 then (5 * d + 2) / 153 + 3 else (5 * d + 2) / 153 - 9,
      d - (153 * ((5 * d + 2) / 153) + 2) / 5 + 1) := by
  unfold monthAndDay
  refine bind_of (u64_of (5 * d + 2) (by omega) (by omega)) ?_
  generalize hmp : (5 * d + 2) / 153 = mp
  refine bind_of (u64_of (153 * mp + 2) (by omega) (by omega)) ?_
  refine bind_of (u64_of (d - (153 * mp + 2) / 5) (by omega) (by omega)) ?_
  refine bind_of (u64_of (d - (153 * mp + 2) / 5 + 1) (by omega) (by omega)) ?_
  refine bind_of (a := if mp < 10 then mp + 3 else mp - 9) ?_ rfl
  split
  · exact u64_of _ (by omega) (by omega)
  · exact u64_of _ (by omega) (by omega)

/-! ## A day of a year -/

/-- Months from March on, counted from March. -/
theorem daysBeforeMonth_march (year : Int) {mp : Nat} (h : mp < 10) :
    daysBeforeMonth year (mp + 3) + 306 = daysInYear year + (153 * mp + 2) / 5 := by
  unfold daysInYear
  interval_cases mp <;> simp only [daysBeforeMonth, daysInMonth] <;>
    cases isLeap year <;> rfl

theorem daysInMonth_march (year : Int) {mp : Nat} (h : mp < 10) :
    daysInMonth year (mp + 3) + (153 * mp + 2) / 5 = (153 * (mp + 1) + 2) / 5 := by
  interval_cases mp <;> rfl

/-- The day `d` of the March year `Y` of an era. -/
theorem exists_date (era : Int) {c f y d : Nat} (hc : c ≤ 3) (hf : f ≤ 24) (hy : y ≤ 3)
    (hd : d ≤ 365) (hlast : d = 365 → y = 3 ∧ (f = 24 → c = 3)) :
    ∃ date : Date,
      date.dayNumber = era * 146097 + (36524 * c + 1461 * f + 365 * y + d : Nat) - 719468 ∧
      date.month = (if (5 * d + 2) / 153 < 10 then (5 * d + 2) / 153 + 3
        else (5 * d + 2) / 153 - 9) ∧
      date.day = d - (153 * ((5 * d + 2) / 153) + 2) / 5 + 1 ∧
      date.year = (100 * c + 4 * f + y : Nat) + era * 400 + (if date.month ≤ 2 then 1 else 0) := by
  have hyear : daysBeforeYear ((100 * c + 4 * f + y : Nat) + era * 400 + 1) =
      era * 146097 + (36524 * c + 1461 * f + 365 * y : Nat) := by
    unfold daysBeforeYear
    omega
  generalize hY : ((100 * c + 4 * f + y : Nat) + era * 400 : Int) = Y at hyear ⊢
  generalize hmp : (5 * d + 2) / 153 = mp
  have hmpLe : mp ≤ 11 := by omega
  by_cases hmarch : mp < 10
  · have hbefore := daysBeforeMonth_march Y hmarch
    have hmonth := daysInMonth_march Y hmarch
    have hsucc := daysBeforeYear_succ Y
    refine ⟨⟨Y, mp + 3, d - (153 * mp + 2) / 5 + 1, by omega, by omega⟩, ?_, ?_, rfl, ?_⟩
    · simp only [Date.dayNumber]
      omega
    · rw [if_pos hmarch]
    · simp only
      rw [if_neg (by omega), Int.add_zero]
  · -- January and February belong to the next year
    have hleap : d = 365 → isLeap (Y + 1) = true := by
      intro hday
      obtain ⟨rfl, hcycle⟩ := hlast hday
      simp only [isLeap, Bool.and_eq_true, Bool.or_eq_true, Bool.not_eq_true',
        decide_eq_true_eq, decide_eq_false_iff_not]
      omega
    have hmonth : mp = 10 ∨ mp = 11 := by omega
    rcases hmonth with rfl | rfl
    · have hlength : daysInMonth (Y + 1) 1 = 31 := rfl
      have hbefore : daysBeforeMonth (Y + 1) 1 = 0 := rfl
      refine ⟨⟨Y + 1, 1, d - (153 * 10 + 2) / 5 + 1, by omega, by omega⟩, ?_, rfl, rfl, rfl⟩
      simp only [Date.dayNumber, hbefore]
      omega
    · have hlength : 28 ≤ daysInMonth (Y + 1) 2 := by
        unfold daysInMonth
        split_ifs <;> decide
      have hlengthLeap : d = 365 → daysInMonth (Y + 1) 2 = 29 := by
        intro hday
        simp [daysInMonth, hleap hday]
      have hbefore : daysBeforeMonth (Y + 1) 2 = 31 := rfl
      refine ⟨⟨Y + 1, 2, d - (153 * 11 + 2) / 5 + 1, by omega, by omega⟩, ?_, rfl, rfl, rfl⟩
      simp only [Date.dayNumber, hbefore]
      omega

/-! ## The conversion -/

/-- Truncation after the correction is rounding down. -/
theorem era_eq (z : Int) :
    (if z ≥ 0 then z else z - 146096).tdiv 146097 = z / 146097 := by
  split
  · exact Int.tdiv_eq_ediv_of_nonneg ‹_›
  · rw [Int.tdiv_eq_ediv]
    split
    · omega
    · rw [show Int.sign 146097 = 1 from rfl]
      omega

theorem daysInMonth_le (year : Int) (month : Nat) : daysInMonth year month ≤ 31 := by
  unfold daysInMonth
  split_ifs <;> decide

/-- A year of 32 bits is that of a day of 41. -/
theorem days_bounds {date : Date} (hlow : -2147483648 ≤ date.year) (hhigh : date.year < 2147483648) :
    -1000000000000 ≤ date.dayNumber ∧ date.dayNumber ≤ 1000000000000 := by
  have hmonths : daysBeforeMonth date.year date.month + daysInMonth date.year date.month ≤
      daysInYear date.year := by
    rw [← daysBeforeMonth_end]
    exact daysBeforeMonth_mono date.year date.monthBounds.1
      (Nat.lt_succ_of_le date.monthBounds.2)
  have hyear : daysInYear date.year ≤ 366 := by
    unfold daysInYear
    split <;> decide
  have hday := date.dayBounds
  unfold Date.dayNumber daysBeforeYear
  omega

theorem civilFromDays_eq {z : Int} (hlow : -2147483648 ≤ (ofDays z).year)
    (hhigh : (ofDays z).year < 2147483648) :
    civilFromDays z = some ((ofDays z).year, (ofDays z).month, (ofDays z).day) := by
  obtain ⟨hzLow, hzHigh⟩ := days_bounds hlow hhigh
  rw [dayNumber_ofDays] at hzLow hzHigh
  generalize hera : (z + 719468) / 146097 = era
  obtain ⟨doe, hdoe⟩ : ∃ doe : Nat, z + 719468 - era * 146097 = doe :=
    ⟨(z + 719468 - era * 146097).toNat, by omega⟩
  have hlt : doe < 146097 := by omega
  obtain ⟨c, f, y, d, hparts, hc, hf, hy, hd, hlast⟩ := exists_parts hlt
  obtain ⟨date, hnumber, hmonth, hday, hyear⟩ := exists_date era hc hf hy hd hlast
  have hsame : ofDays z = date := by
    rw [← ofDays_eq date, hnumber]
    exact congrArg ofDays (by omega)
  rw [hsame] at hlow hhigh ⊢
  have hrest : asU64 (z + 719468 - era * 146097) = doe := by
    unfold asU64
    omega
  unfold civilFromDays
  refine bind_of (i64_of (by omega) (by omega)) ?_
  refine bind_of (a := if z + 719468 ≥ 0 then z + 719468 else z + 719468 - 146096) ?_ ?_
  · split
    · rfl
    · exact i64_of (by omega) (by omega)
  rw [era_eq, hera]
  refine bind_of (i64_of (by omega) (by omega)) ?_
  refine bind_of (i64_of (by omega) (by omega)) ?_
  rw [hrest]
  refine bind_of (yearOfEra_eq hc hf hy hd hlast hparts) ?_
  refine bind_of (i64_of (by omega) (by omega)) ?_
  refine bind_of (i64_of (by omega) (by omega)) ?_
  refine bind_of (dayOfYear_eq hc hf hy hd hparts) ?_
  refine bind_of (monthAndDay_eq hd) ?_
  rw [← hmonth, ← hday]
  refine bind_of (a := date.year) ?_ ?_
  · rw [hyear]
    split
    · exact i64_of (by omega) (by omega)
    · rw [Int.add_zero]
  have hmonthLe := date.monthBounds.2
  have hdayLe : date.day ≤ 31 := Nat.le_trans date.dayBounds.2 (daysInMonth_le _ _)
  have hyear32 : asI32 date.year = date.year := Int.bmod_eq_of_le (by omega) (by omega)
  have hmonth32 : asU32 date.month = date.month := Nat.mod_eq_of_lt (by omega)
  have hday32 : asU32 date.day = date.day := Nat.mod_eq_of_lt (by omega)
  show some (asI32 date.year, asU32 date.month, asU32 date.day) = _
  rw [hyear32, hmonth32, hday32]

/-! ## Digits in order -/

theorem padded_succ {width n : Nat} (hwidth : 0 < width) :
    padded (width + 1) n = padded width (n / 10) ++ [Nat.digitChar (n % 10)] := by
  have hdecimal : decimal n =
      if n < 10 then [Nat.digitChar n] else decimal (n / 10) ++ [Nat.digitChar (n % 10)] :=
    Nat.toDigits_eq_if (by decide)
  unfold padded
  rw [hdecimal]
  split
  · rename_i hsmall
    have hzero : decimal 0 = ['0'] := rfl
    obtain ⟨more, rfl⟩ := Nat.exists_eq_add_of_le' hwidth
    rw [Nat.div_eq_of_lt hsmall, Nat.mod_eq_of_lt hsmall, hzero]
    simp only [List.length_singleton, Nat.add_sub_cancel, ← List.replicate_succ']
  · rw [List.length_append, List.length_singleton, Nat.add_sub_add_right, List.append_assoc]

theorem padded_one {n : Nat} (h : n < 10) : padded 1 n = [Nat.digitChar n] := by
  have hdecimal : decimal n = [Nat.digitChar n] := by
    unfold decimal
    rw [Nat.toDigits_eq_if (by decide), if_pos h]
  unfold padded
  rw [hdecimal]
  rfl

theorem length_padded {width n : Nat} (hn : n < 10 ^ (width + 1)) :
    (padded (width + 1) n).length = width + 1 := by
  induction width generalizing n with
  | zero => rw [padded_one hn, List.length_singleton]
  | succ width ih =>
    rw [padded_succ (Nat.succ_pos width), List.length_append, List.length_singleton,
      ih (by rw [Nat.pow_succ] at hn; omega)]

/-- Texts of one length are ordered by the first part in which they differ. -/
theorem append_lt_iff {a b c d : Text} (h : a.length = b.length) :
    a ++ c < b ++ d ↔ a < b ∨ a = b ∧ c < d := by
  induction a generalizing b with
  | nil =>
    cases b with
    | nil => simp
    | cons y b => simp at h
  | cons x a ih =>
    cases b with
    | nil => simp at h
    | cons y b =>
      simp only [List.cons_append, List.cons_lt_cons_iff, ih (by simpa using h), List.cons.injEq]
      tauto

theorem digitChar_lt_iff {m n : Nat} (hm : m < 10) (hn : n < 10) :
    Nat.digitChar m < Nat.digitChar n ↔ m < n := by
  have hall : ∀ m < 10, ∀ n < 10, Nat.digitChar m < Nat.digitChar n ↔ m < n := by decide
  exact hall m hm n hn

/-- Texts of one width are in the order of their numbers. -/
theorem padded_lt_iff {width m n : Nat} (hm : m < 10 ^ (width + 1)) (hn : n < 10 ^ (width + 1)) :
    padded (width + 1) m < padded (width + 1) n ↔ m < n := by
  induction width generalizing m n with
  | zero =>
    rw [padded_one hm, padded_one hn, List.cons_lt_cons_iff, digitChar_lt_iff hm hn]
    simp
  | succ width ih =>
    have hmTens : m / 10 < 10 ^ (width + 1) := by rw [Nat.pow_succ] at hm; omega
    have hnTens : n / 10 < 10 ^ (width + 1) := by rw [Nat.pow_succ] at hn; omega
    have hsame : padded (width + 1) (m / 10) = padded (width + 1) (n / 10) ↔ m / 10 = n / 10 := by
      refine ⟨fun h => ?_, fun h => by rw [h]⟩
      rcases Nat.lt_trichotomy (m / 10) (n / 10) with hlt | heq | hgt
      · exact absurd ((ih hmTens hnTens).mpr hlt) (by rw [h]; exact List.lt_irrefl _)
      · exact heq
      · exact absurd ((ih hnTens hmTens).mpr hgt) (by rw [h]; exact List.lt_irrefl _)
    rw [padded_succ (Nat.succ_pos width), padded_succ (Nat.succ_pos width),
      append_lt_iff (by rw [length_padded hmTens, length_padded hnTens]), ih hmTens hnTens, hsame,
      List.cons_lt_cons_iff, digitChar_lt_iff (Nat.mod_lt _ (by decide)) (Nat.mod_lt _ (by decide))]
    simp only [List.not_lt_nil, and_false, or_false]
    omega

/-- One field of a stamp, and what comes after it. -/
theorem padded_append_lt_iff {width m n : Nat} (hm : m < 10 ^ (width + 1))
    (hn : n < 10 ^ (width + 1)) (a b : Text) :
    padded (width + 1) m ++ a < padded (width + 1) n ++ b ↔ m < n ∨ m = n ∧ a < b := by
  rw [append_lt_iff (by rw [length_padded hm, length_padded hn]), padded_lt_iff hm hn]
  refine or_congr_right (and_congr_left' ⟨fun h => ?_, fun h => by rw [h]⟩)
  have hless := (padded_lt_iff hm hn).mpr.mt (by rw [h]; exact List.lt_irrefl _)
  have hgreater := (padded_lt_iff hn hm).mpr.mt (by rw [h]; exact List.lt_irrefl _)
  omega

/-! ## The stamp -/

/-- A stamp of its six fields. -/
def stampOf (year month day hour min sec : Nat) : Text :=
  padded 4 year ++ (padded 2 month ++ (padded 2 day ++ ('T' :: (padded 2 hour ++
    (padded 2 min ++ (padded 2 sec ++ ['Z']))))))

theorem days_of_stamp {days : Int} (hlow : 0 ≤ days) (hhigh : days < 2932897) :
    1970 ≤ (ofDays days).year ∧ (ofDays days).year < 10000 := by
  have hnumber := dayNumber_ofDays days
  have hend : (Date.mk 10000 1 1 (by decide) (by decide)).dayNumber = 2932897 := by decide
  have hbefore := (before_iff (ofDays days) ⟨10000, 1, 1, by decide, by decide⟩).mpr
    (by rw [hnumber, hend]; exact hhigh)
  have hepoch : ¬ (ofDays days).Before epoch := by
    rw [before_iff, hnumber, show epoch.dayNumber = 0 by decide]
    omega
  have hmonth := (ofDays days).monthBounds.1
  have hday := (ofDays days).dayBounds.1
  simp only [Date.Before, epoch] at hbefore hepoch
  omega

theorem utcCompact_eq {secs : Nat} (h : secs < 253402300800) :
    utcCompact secs = some (stampOf (ofDays (secs / 86400 : Nat)).year.toNat
      (ofDays (secs / 86400 : Nat)).month (ofDays (secs / 86400 : Nat)).day
      (secs % 86400 / 3600) (secs % 86400 % 3600 / 60) (secs % 86400 % 60)) := by
  have hdays : ((secs / 86400 : Nat) : Int) < 2932897 := by omega
  obtain ⟨hlow, hhigh⟩ := days_of_stamp (Int.natCast_nonneg _) hdays
  have hcivil := civilFromDays_eq (z := (secs / 86400 : Nat)) (by omega) (by omega)
  have hyear : paddedInt 4 (ofDays (secs / 86400 : Nat)).year =
      padded 4 (ofDays (secs / 86400 : Nat)).year.toNat := by
    unfold paddedInt
    rw [if_neg (by omega)]
    exact congrArg (padded 4) (by omega)
  unfold utcCompact
  refine bind_of hcivil ?_
  simp only [hyear, stampOf, List.append_assoc, List.cons_append]
  rfl

/-- The order of two stamps is that of what they stand for. -/
theorem stampOf_lt_iff {a b : Date} {h m s h' m' s' : Nat}
    (ha : 0 ≤ a.year ∧ a.year < 10000) (hb : 0 ≤ b.year ∧ b.year < 10000)
    (htime : h < 100 ∧ m < 100 ∧ s < 100) (htime' : h' < 100 ∧ m' < 100 ∧ s' < 100) :
    stampOf a.year.toNat a.month a.day h m s < stampOf b.year.toNat b.month b.day h' m' s' ↔
      a.dayNumber < b.dayNumber ∨ a.dayNumber = b.dayNumber ∧
        (h < h' ∨ h = h' ∧ (m < m' ∨ m = m' ∧ s < s')) := by
  have hmonth := a.monthBounds.2
  have hmonth' := b.monthBounds.2
  have hday := Nat.le_trans a.dayBounds.2 (daysInMonth_le a.year a.month)
  have hday' := Nat.le_trans b.dayBounds.2 (daysInMonth_le b.year b.month)
  have hsame : a.dayNumber = b.dayNumber ↔ a.year = b.year ∧ a.month = b.month ∧ a.day = b.day := by
    rw [← Date.ext_iff]
    refine ⟨fun h => ?_, fun h => by rw [h]⟩
    rw [← ofDays_eq a, h, ofDays_eq]
  rw [← before_iff, hsame]
  unfold stampOf Date.Before
  rw [padded_append_lt_iff (by omega) (by omega), padded_append_lt_iff (by omega) (by omega),
    padded_append_lt_iff (by omega) (by omega), List.cons_lt_cons_iff,
    padded_append_lt_iff (by omega) (by omega), padded_append_lt_iff (by omega) (by omega),
    padded_append_lt_iff (by omega) (by omega)]
  simp only [List.lt_irrefl, Char.lt_irrefl, and_false, or_false, false_or, true_and]
  omega

theorem utcCompact_lt_iff {s t : Nat} (hs : s < 253402300800) (ht : t < 253402300800) :
    ∃ a b, utcCompact s = some a ∧ utcCompact t = some b ∧ (a < b ↔ s < t) := by
  refine ⟨_, _, utcCompact_eq hs, utcCompact_eq ht, ?_⟩
  have hday : ((s / 86400 : Nat) : Int) < 2932897 := by omega
  have hday' : ((t / 86400 : Nat) : Int) < 2932897 := by omega
  obtain ⟨hlow, hhigh⟩ := days_of_stamp (Int.natCast_nonneg _) hday
  obtain ⟨hlow', hhigh'⟩ := days_of_stamp (Int.natCast_nonneg _) hday'
  rw [stampOf_lt_iff ⟨by omega, hhigh⟩ ⟨by omega, hhigh'⟩ (by omega) (by omega),
    dayNumber_ofDays, dayNumber_ofDays]
  omega

/-- The conversion is the calendar on every day whose year is one of 32 bits: it starts
at the epoch, each day is the one after the day before, and no step of it overflows. So
the stamps are ordered as the seconds they are of. -/
theorem run_stamps :
    (∀ z : Int, -2147483648 ≤ (ofDays z).year → (ofDays z).year ≤ 2147483647 →
      civilFromDays z = some ((ofDays z).year, (ofDays z).month, (ofDays z).day)) ∧
    civilFromDays 0 = some (1970, 1, 1) ∧ (∀ z, ofDays (z + 1) = (ofDays z).next) ∧
    ∀ s t, s < 253402300800 → t < 253402300800 →
      ∃ a b, utcCompact s = some a ∧ utcCompact t = some b ∧ (a < b ↔ s < t) :=
  ⟨fun _ hlow hhigh => civilFromDays_eq hlow (by omega), by decide, ofDays_succ,
    fun _ _ => utcCompact_lt_iff⟩

theorem run_stamps_leap_day :
    civilFromDays 11016 = some (2000, 2, 29) ∧
    ∃ a b, utcCompact 951868799 = some a ∧ utcCompact 951868800 = some b ∧
      (a < b ↔ 951868799 < 951868800) := by
  have hnumber : (Date.mk 2000 2 29 (by decide) (by decide)).dayNumber = 11016 := by decide
  have hdate := ofDays_eq ⟨2000, 2, 29, by decide, by decide⟩
  rw [hnumber] at hdate
  refine ⟨?_, run_stamps.2.2.2 951868799 951868800 (by decide) (by decide)⟩
  have h := run_stamps.1 11016 (by rw [hdate]; decide) (by rw [hdate]; decide)
  rw [hdate] at h
  exact h

end CommercePlayground.Cli.Stamp
