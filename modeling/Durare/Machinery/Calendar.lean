import Mathlib.Algebra.Group.Nat.Defs
import Mathlib.Data.Int.Basic
import Mathlib.Data.List.Basic

/-!
# Machinery/Calendar — dates of the Gregorian calendar, and numbers of a fixed width

Days are counted from 1970-01-01.  A date is taken apart from the long end: 400 years, a century,
four years, a year — each year from March to February, so that a leap day is the last of its year —
and a month.  `Date.ofDays_injective`: no two days have the same date.

`fixed k n` writes the last `k` decimal digits of `n`; numbers of at most `k` digits are told apart
by them.
-/

namespace Calendar

/-! ## Dates -/

@[ext] structure Date where
  year : Int
  month : Int
  day : Int
  deriving DecidableEq, Repr

namespace Date

/-- Where a day lies in its 400 years: the century, the four years, the year, and the day of the
year that starts in March. -/
structure Cycle where
  era : Int
  century : Int
  olympiad : Int
  year : Int
  day : Int

/-- Day 0 of the cycles is 0000-03-01. -/
def Cycle.ofDays (days : Int) : Cycle :=
  let z := days + 719468
  let inEra := z % 146097
  -- The last century and the last year are one day longer.
  let century := min (inEra / 36524) 3
  let inCentury := inEra - 36524 * century
  let olympiad := inCentury / 1461
  let inOlympiad := inCentury % 1461
  let year := min (inOlympiad / 365) 3
  ⟨z / 146097, century, olympiad, year, inOlympiad - 365 * year⟩

/-- The month, counted from March. -/
def Cycle.month (c : Cycle) : Int := (5 * c.day + 2) / 153

def ofDays (days : Int) : Date :=
  let c := Cycle.ofDays days
  let month := if c.month < 10 then c.month + 3 else c.month - 9
  { year := 400 * c.era + 100 * c.century + 4 * c.olympiad + c.year + if month ≤ 2 then 1 else 0
    month := month
    day := c.day - (153 * c.month + 2) / 5 + 1 }

/-- What the parts of a cycle are bounded by, and that they make up the day. -/
structure Cycle.Spec (days : Int) (c : Cycle) : Prop where
  century : 0 ≤ c.century ∧ c.century ≤ 3
  olympiad : 0 ≤ c.olympiad ∧ c.olympiad ≤ 24
  year : 0 ≤ c.year ∧ c.year ≤ 3
  day : 0 ≤ c.day ∧ c.day ≤ 365
  sum : days + 719468 =
    146097 * c.era + 36524 * c.century + 1461 * c.olympiad + 365 * c.year + c.day

theorem Cycle.spec (days : Int) : Cycle.Spec days (.ofDays days) := by
  constructor
  all_goals
    simp only [ofDays]
    omega

theorem Cycle.Spec.month {days : Int} {c : Cycle} (h : Cycle.Spec days c) :
    0 ≤ c.month ∧ c.month ≤ 11 := by
  have hday := h.day
  simp only [Cycle.month]
  omega

theorem month_ofDays (days : Int) : 1 ≤ (ofDays days).month ∧ (ofDays days).month ≤ 12 := by
  have hmonth := (Cycle.spec days).month
  simp only [ofDays]
  split
  · omega
  · omega

theorem day_ofDays (days : Int) : 1 ≤ (ofDays days).day ∧ (ofDays days).day ≤ 31 := by
  have hday := (Cycle.spec days).day
  simp only [ofDays, Cycle.month]
  omega

/-- **No two days have the same date.** -/
theorem ofDays_injective {a b : Int} (h : ofDays a = ofDays b) : a = b := by
  have ha := Cycle.spec a
  have hb := Cycle.spec b
  obtain ⟨hyear, hmonth, hday⟩ := Date.mk.inj h
  have hsame : (Cycle.ofDays a).month = (Cycle.ofDays b).month := by
    have hboundA := ha.month
    have hboundB := hb.month
    split at hmonth <;> split at hmonth <;> omega
  rw [hsame] at hyear hday
  have hyears : 400 * (Cycle.ofDays a).era + 100 * (Cycle.ofDays a).century +
        4 * (Cycle.ofDays a).olympiad + (Cycle.ofDays a).year =
      400 * (Cycle.ofDays b).era + 100 * (Cycle.ofDays b).century +
        4 * (Cycle.ofDays b).olympiad + (Cycle.ofDays b).year := (Int.add_left_inj _).mp hyear
  obtain ⟨hcA, hoA, hyA, -, hsumA⟩ := ha
  obtain ⟨hcB, hoB, hyB, -, hsumB⟩ := hb
  omega

end Date

example : Date.ofDays 0 = ⟨1970, 1, 1⟩ ∧ Date.ofDays 11016 = ⟨2000, 2, 29⟩ ∧
    Date.ofDays 20772 = ⟨2026, 11, 15⟩ := by decide

/-! ## Digits -/

/-- The last decimal digit. -/
def digit (n : Nat) : Char := Nat.digitChar (n % 10)

/-- The last `k` decimal digits, with leading zeros. -/
def fixed : Nat → Nat → List Char
  | 0, _ => []
  | k + 1, n => fixed k (n / 10) ++ [digit n]

@[simp] theorem length_fixed (k n : Nat) : (fixed k n).length = k := by
  induction k generalizing n with
  | zero => rfl
  | succ k ih => simp [fixed, ih]

theorem digit_inj {a b : Nat} (h : digit a = digit b) : a % 10 = b % 10 := by
  have hdigits : ∀ i < 10, ∀ j < 10, Nat.digitChar i = Nat.digitChar j → i = j := by decide
  exact hdigits _ (Nat.mod_lt a (by decide)) _ (Nat.mod_lt b (by decide)) h

/-- **Numbers of at most `k` digits are told apart.** -/
theorem fixed_inj {k a b : Nat} (ha : a < 10 ^ k) (hb : b < 10 ^ k) (h : fixed k a = fixed k b) :
    a = b := by
  induction k generalizing a b with
  | zero => omega
  | succ k ih =>
    obtain ⟨hinit, hlast⟩ := List.append_inj' h rfl
    have hrest : a / 10 = b / 10 := ih (by omega) (by omega) hinit
    have hdigit := digit_inj (List.cons.inj hlast).1
    omega

end Calendar
