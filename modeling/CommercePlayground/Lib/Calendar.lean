/-
CommercePlayground.Lib.Calendar — the proleptic Gregorian calendar.

A date carries that its month has its day. `Date.next` and `Date.prev` are the rules of
the calendar, and `ofDays z` takes `z` such steps from the epoch. Counting days in years
and months (`Date.dayNumber`) undoes that: it turns a formula that has the right number
into the right date (`ofDays_eq`), and the order of dates into that of their numbers
(`before_iff`).
-/
import Mathlib.Algebra.Order.Ring.Int
import Mathlib.Data.List.Basic
import Mathlib.Logic.Function.Iterate

namespace CommercePlayground.Lib.Calendar

/-! ## The rules -/

/-- Every fourth year, but of the full centuries every fourth only. -/
def isLeap (year : Int) : Bool :=
  decide (year % 4 = 0) && (!decide (year % 100 = 0) || decide (year % 400 = 0))

def daysInMonth (year : Int) (month : Nat) : Nat :=
  if month = 2 then (if isLeap year then 29 else 28)
  else if month = 4 ∨ month = 6 ∨ month = 9 ∨ month = 11 then 30
  else 31

theorem daysInMonth_pos (year : Int) (month : Nat) : 1 ≤ daysInMonth year month := by
  unfold daysInMonth
  split_ifs <;> decide

@[ext]
structure Date where
  year : Int
  month : Nat
  day : Nat
  monthBounds : 1 ≤ month ∧ month ≤ 12
  dayBounds : 1 ≤ day ∧ day ≤ daysInMonth year month

def epoch : Date := ⟨1970, 1, 1, by decide, by decide⟩

def Date.next (date : Date) : Date :=
  if hday : date.day < daysInMonth date.year date.month then
    ⟨date.year, date.month, date.day + 1, date.monthBounds, Nat.le_add_left 1 _, hday⟩
  else if hmonth : date.month < 12 then
    ⟨date.year, date.month + 1, 1, ⟨Nat.le_add_left 1 _, hmonth⟩, Nat.le_refl 1,
      daysInMonth_pos _ _⟩
  else ⟨date.year + 1, 1, 1, by decide, Nat.le_refl 1, daysInMonth_pos _ _⟩

def Date.prev (date : Date) : Date :=
  if hday : 1 < date.day then
    ⟨date.year, date.month, date.day - 1, date.monthBounds, Nat.le_sub_one_of_lt hday,
      Nat.le_trans (Nat.sub_le _ _) date.dayBounds.2⟩
  else if hmonth : 1 < date.month then
    ⟨date.year, date.month - 1, daysInMonth date.year (date.month - 1),
      ⟨Nat.le_sub_one_of_lt hmonth, Nat.le_trans (Nat.sub_le _ _) date.monthBounds.2⟩,
      daysInMonth_pos _ _, Nat.le_refl _⟩
  else
    ⟨date.year - 1, 12, daysInMonth (date.year - 1) 12, by decide, daysInMonth_pos _ _,
      Nat.le_refl _⟩

/-- The date a number of days after the epoch, or before it. -/
def ofDays : Int → Date
  | .ofNat n => Date.next^[n] epoch
  | .negSucc n => Date.prev^[n + 1] epoch

theorem next_prev (date : Date) : date.prev.next = date := by
  obtain ⟨hmonthLow, hmonthHigh⟩ := date.monthBounds
  obtain ⟨hdayLow, hdayHigh⟩ := date.dayBounds
  unfold Date.prev
  split_ifs with hday hmonth
  · unfold Date.next
    rw [dif_pos (show date.day - 1 < daysInMonth date.year date.month by omega)]
    exact Date.ext rfl rfl (show date.day - 1 + 1 = date.day by omega)
  · unfold Date.next
    rw [dif_neg (Nat.lt_irrefl _), dif_pos (show date.month - 1 < 12 by omega)]
    exact Date.ext rfl (show date.month - 1 + 1 = date.month by omega)
      (show 1 = date.day by omega)
  · unfold Date.next
    rw [dif_neg (Nat.lt_irrefl _), dif_neg (Nat.lt_irrefl _)]
    exact Date.ext (show date.year - 1 + 1 = date.year by omega) (show 1 = date.month by omega)
      (show 1 = date.day by omega)

theorem ofDays_succ (z : Int) : ofDays (z + 1) = (ofDays z).next := by
  match z with
  | .ofNat n => exact Function.iterate_succ_apply' _ _ _
  | .negSucc 0 => exact (next_prev epoch).symm
  | .negSucc (n + 1) =>
    show Date.prev^[n + 1] epoch = (Date.prev^[n + 2] epoch).next
    rw [Function.iterate_succ_apply' _ (n + 1), next_prev]

/-! ## Counting days -/

/-- The days from the start of year 1 to the start of a year. -/
def daysBeforeYear (year : Int) : Int :=
  365 * (year - 1) + (year - 1) / 4 - (year - 1) / 100 + (year - 1) / 400

/-- The days from the start of a year to the start of a month. -/
def daysBeforeMonth (year : Int) : Nat → Nat
  | 0 => 0
  | 1 => 0
  | month + 2 => daysBeforeMonth year (month + 1) + daysInMonth year (month + 1)

/-- The days from the epoch to a date. -/
def Date.dayNumber (date : Date) : Int :=
  daysBeforeYear date.year + daysBeforeMonth date.year date.month + date.day - 719163

def daysInYear (year : Int) : Nat := if isLeap year then 366 else 365

theorem daysBeforeYear_succ (year : Int) :
    daysBeforeYear (year + 1) = daysBeforeYear year + daysInYear year := by
  unfold daysBeforeYear daysInYear isLeap
  simp only [Bool.and_eq_true, Bool.or_eq_true, Bool.not_eq_true', decide_eq_true_eq,
    decide_eq_false_iff_not]
  split
  · omega
  · omega

theorem daysBeforeMonth_succ (year : Int) {month : Nat} (h : 1 ≤ month) :
    daysBeforeMonth year (month + 1) = daysBeforeMonth year month + daysInMonth year month := by
  obtain ⟨more, rfl⟩ := Nat.exists_eq_add_of_le' h
  rfl

theorem daysBeforeMonth_end (year : Int) : daysBeforeMonth year 13 = daysInYear year := by
  simp only [daysBeforeMonth, daysInMonth, daysInYear]
  cases isLeap year <;> rfl

theorem dayNumber_next (date : Date) : date.next.dayNumber = date.dayNumber + 1 := by
  obtain ⟨hmonthLow, hmonthHigh⟩ := date.monthBounds
  obtain ⟨-, hdayHigh⟩ := date.dayBounds
  unfold Date.next
  split_ifs with hday hmonth
  · simp only [Date.dayNumber]
    omega
  · simp only [Date.dayNumber, daysBeforeMonth_succ date.year hmonthLow]
    omega
  · have hlast : date.month = 12 := by omega
    have hmonths := daysBeforeMonth_succ date.year hmonthLow
    have hyear := daysBeforeYear_succ date.year
    have hfirst : daysBeforeMonth (date.year + 1) 1 = 0 := rfl
    rw [hlast, daysBeforeMonth_end] at hmonths
    rw [hlast] at hday hdayHigh
    simp only [Date.dayNumber, hlast, hyear, hfirst]
    omega

theorem dayNumber_ofDays (z : Int) : (ofDays z).dayNumber = z := by
  induction z using Int.induction_on with
  | zero => decide
  | succ n ih => rw [ofDays_succ, dayNumber_next, ih]
  | pred n ih =>
    have hstep := dayNumber_next (ofDays (-(n : Int) - 1))
    rw [← ofDays_succ, Int.sub_add_cancel, ih] at hstep
    omega

/-! ## The order of dates -/

/-- An earlier date. -/
def Date.Before (a b : Date) : Prop :=
  a.year < b.year ∨ a.year = b.year ∧
    (a.month < b.month ∨ a.month = b.month ∧ a.day < b.day)

theorem daysBeforeYear_mono {a b : Int} (h : a < b) :
    daysBeforeYear a + daysInYear a ≤ daysBeforeYear b := by
  rw [← daysBeforeYear_succ]
  unfold daysBeforeYear
  omega

theorem daysBeforeMonth_mono (year : Int) {a b : Nat} (ha : 1 ≤ a) (h : a < b) :
    daysBeforeMonth year a + daysInMonth year a ≤ daysBeforeMonth year b := by
  rw [← daysBeforeMonth_succ year ha]
  induction b with
  | zero => omega
  | succ b ih =>
    rcases Nat.lt_succ_iff_lt_or_eq.mp h with hlt | rfl
    · rw [daysBeforeMonth_succ year (Nat.le_trans ha (Nat.le_of_lt hlt))]
      exact Nat.le_trans (ih hlt) (Nat.le_add_right _ _)
    · exact Nat.le_refl _

theorem Date.Before.dayNumber_lt {a b : Date} (h : a.Before b) : a.dayNumber < b.dayNumber := by
  have hday := b.dayBounds.1
  have hlast := a.dayBounds.2
  unfold Date.dayNumber
  rcases h with hyear | ⟨hyear, hmonth | ⟨hmonth, hless⟩⟩
  · -- the first date ends within its year
    have hyears := daysBeforeYear_mono hyear
    have hend : daysBeforeMonth a.year a.month + daysInMonth a.year a.month ≤ daysInYear a.year := by
      rw [← daysBeforeMonth_end]
      exact daysBeforeMonth_mono a.year a.monthBounds.1 (Nat.lt_succ_of_le a.monthBounds.2)
    omega
  · have hmonths := daysBeforeMonth_mono a.year a.monthBounds.1 hmonth
    rw [← hyear]
    omega
  · rw [← hyear, ← hmonth]
    omega

theorem Date.before_or_eq (a b : Date) : a.Before b ∨ a = b ∨ b.Before a := by
  unfold Date.Before
  rw [Date.ext_iff]
  omega

theorem before_iff (a b : Date) : a.Before b ↔ a.dayNumber < b.dayNumber := by
  refine ⟨Date.Before.dayNumber_lt, fun h => ?_⟩
  rcases a.before_or_eq b with hbefore | rfl | hbefore
  · exact hbefore
  · omega
  · have := hbefore.dayNumber_lt
    omega

/-- A date with the right number is the right date. -/
theorem ofDays_eq (date : Date) : ofDays date.dayNumber = date := by
  have hnumber := dayNumber_ofDays date.dayNumber
  rcases (ofDays date.dayNumber).before_or_eq date with h | h | h
  · have := h.dayNumber_lt
    omega
  · exact h
  · have := h.dayNumber_lt
    omega

end CommercePlayground.Lib.Calendar
