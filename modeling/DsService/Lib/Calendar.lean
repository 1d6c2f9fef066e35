import Mathlib.Algebra.BigOperators.Intervals
import Mathlib.Algebra.Order.Ring.Nat
import Mathlib.Tactic.IntervalCases

/-!
# The proleptic Gregorian calendar

The days of the calendar are counted year by year and month by month from 1970-01-01, forwards and
backwards (`dayNumber`). `daysSinceEpoch` computes the same number in constant time, with the year
taken to start in March, so that a leap day is the last of its year (`daysSinceEpoch_eq`), and
`dateOf` computes the date back from it (`daysSinceEpoch_dateOf`).
-/

namespace Calendar

/-! ## Lengths -/

def isLeap (y : Int) : Bool := y % 4 == 0 && (y % 100 != 0 || y % 400 == 0)

def yearLength (y : Int) : Int := if isLeap y then 366 else 365

def monthLength (y : Int) : Nat → Nat
  | 2 => if isLeap y then 29 else 28
  | 4 | 6 | 9 | 11 => 30
  | _ => 31

/-- No month has more than 31 days. -/
theorem monthLength_le (y : Int) (m : Nat) : monthLength y m ≤ 31 := by
  unfold monthLength
  split
  · split <;> decide
  all_goals decide

/-- The date exists. -/
def isDate (y : Int) (m d : Nat) : Bool := 1 ≤ m && m ≤ 12 && 1 ≤ d && d ≤ monthLength y m

/-! ## Counting -/

/-- The days from 1970-01-01 to the first day of a year. -/
def yearStart (y : Int) : Int :=
  ∑ i ∈ Finset.range (y - 1970).toNat, yearLength (1970 + i) -
    ∑ i ∈ Finset.range (1970 - y).toNat, yearLength (y + i)

/-- The days of a year before the first day of a month. -/
def monthStart (y : Int) (m : Nat) : Nat :=
  ((List.range (m - 1)).map fun i => monthLength y (i + 1)).sum

/-- The days from 1970-01-01 to a date. -/
def dayNumber (y : Int) (m d : Nat) : Int := yearStart y + monthStart y m + d - 1

/-! ## Computing -/

/-- The days from 1970-01-01 to a date, with January and February counted to the year before. -/
def daysSinceEpoch (y : Int) (m d : Nat) : Int :=
  let y := if m < 3 then y - 1 else y
  let m : Int := if m < 3 then m + 12 else m
  let century := y / 100
  1461 * y / 4 - century + century / 4 + (979 * m - 2919) / 32 + (d - 1) - 719468

/-- A year begins where the one before it ends. -/
theorem yearStart_succ (y : Int) : yearStart (y + 1) = yearStart y + yearLength y := by
  unfold yearStart
  rcases le_or_gt 1970 y with h | h
  · have hup : (y + 1 - 1970).toNat = (y - 1970).toNat + 1 := by omega
    have hdown : (1970 - (y + 1)).toNat = 0 := by omega
    have hdown' : (1970 - y).toNat = 0 := by omega
    have hlast : (1970 : Int) + (y - 1970).toNat = y := by omega
    rw [hup, hdown, hdown', Finset.sum_range_succ, hlast, Finset.sum_range_zero,
      Finset.sum_range_zero]
    omega
  · have hdown : (1970 - y).toNat = (1970 - (y + 1)).toNat + 1 := by omega
    have hup : (y + 1 - 1970).toNat = 0 := by omega
    have hup' : (y - 1970).toNat = 0 := by omega
    have hshift : ∀ i : Nat, yearLength (y + (i + 1 : Nat)) = yearLength (y + 1 + i) := by
      intro i
      congr 1
      omega
    rw [hdown, hup, hup', Finset.sum_range_succ', Finset.sum_congr rfl fun i _ => hshift i]
    simp only [Nat.cast_zero, add_zero]
    omega

/-- A leap day is what the quotients of a year and of the year before differ by. -/
theorem leapDay_eq (y : Int) : (if isLeap y then 1 else 0) =
    (y / 4 - (y - 1) / 4) - (y / 100 - (y - 1) / 100) + (y / 400 - (y - 1) / 400) := by
  unfold isLeap
  simp only [Bool.and_eq_true, Bool.or_eq_true, beq_iff_eq, bne_iff_ne]
  split <;> omega

/-- A leap year has one day more. -/
theorem yearLength_eq (y : Int) : yearLength y = 365 + if isLeap y then 1 else 0 := by
  unfold yearLength
  split <;> rfl

/-- The years from 1970 hold 365 days each, and a day more for each leap year among them. -/
theorem yearStart_eq (y : Int) :
    yearStart y = 365 * (y - 1970) + ((y - 1) / 4 - (y - 1) / 100 + (y - 1) / 400) - 477 := by
  induction y using Int.inductionOn' (b := 1970) with
  | zero => simp [yearStart]
  | succ y _ ih =>
    rw [yearStart_succ, ih, yearLength_eq, leapDay_eq, add_sub_cancel_right]
    omega
  | pred y _ ih =>
    have hsucc := yearStart_succ (y - 1)
    rw [sub_add_cancel, ih, yearLength_eq, leapDay_eq] at hsucc
    omega

/-- The days before a month, by a linear formula from March on. -/
theorem monthStart_eq {y : Int} {m : Nat} (h1 : 1 ≤ m) (h12 : m ≤ 12) :
    (monthStart y m : Int) =
      if m < 3 then (979 * (m + 12 : Int) - 2919) / 32 - 306
      else (979 * (m : Int) - 2919) / 32 + 59 + if isLeap y then 1 else 0 := by
  interval_cases m <;> simp [monthStart, List.range_succ, monthLength] <;> split <;> simp

/-- A year is 365 days, and every fourth one has a day more. -/
theorem quarter_eq (y : Int) : 1461 * y / 4 = 365 * y + y / 4 := by
  omega

/-- Every fourth century begins every four hundred years. -/
theorem century_quarter_eq (y : Int) : y / 100 / 4 = y / 400 := by
  omega

/-- **The formula counts the days.** -/
theorem daysSinceEpoch_eq {y : Int} {m : Nat} (h1 : 1 ≤ m) (h12 : m ≤ 12) (d : Nat) :
    daysSinceEpoch y m d = dayNumber y m d := by
  unfold daysSinceEpoch dayNumber
  rw [yearStart_eq, monthStart_eq h1 h12]
  split
  · dsimp only
    rw [quarter_eq, century_quarter_eq]
    omega
  · dsimp only
    rw [quarter_eq, century_quarter_eq, leapDay_eq]
    omega

example : daysSinceEpoch 1970 1 1 = 0 ∧ daysSinceEpoch 2000 2 29 = 11016 := by decide

/-! ## Back to the date -/

/-- The year that starts in March and the day of it, from 0, of a count of days from 0000-03-01. The
last century of four, and the last year of four, is the one that may have a day more. -/
def marchYear (z : Int) : Int × Nat :=
  let n := (z % 146097).toNat
  let century := min 3 (n / 36524)
  let quarter := (n - 36524 * century) / 1461
  let rest := n - 36524 * century - 1461 * quarter
  let year := min 3 (rest / 365)
  (400 * (z / 146097) + 100 * century + 4 * quarter + year, rest - 365 * year)

/-- The month, from 3 for March to 14 for February, and the day of it. -/
def marchDate (doy : Nat) : Nat × Nat :=
  let month := (5 * doy + 2) / 153 + 3
  (month, doy - (979 * month - 2919) / 32 + 1)

/-- The date that is a number of days from 1970-01-01. -/
def dateOf (days : Int) : Int × Nat × Nat :=
  let (y, doy) := marchYear (days + 719468)
  let (m, d) := marchDate doy
  if 12 < m then (y + 1, m - 12, d) else (y, m, d)

/-- Every fourth year is a leap year, but of the centuries only every fourth. -/
theorem isLeap_iff (y : Int) : isLeap y = true ↔ y % 4 = 0 ∧ (y % 100 ≠ 0 ∨ y % 400 = 0) := by
  simp [isLeap]

/-- The quotients of a year, put together from its centuries, its quarters and the years of one. -/
theorem marchYear_div {era : Int} {century quarter year : Nat} (hc : century ≤ 3)
    (hq : quarter ≤ 24) (hy : year ≤ 3) :
    (400 * era + 100 * century + 4 * quarter + year) / 4 = 100 * era + 25 * century + quarter ∧
      (400 * era + 100 * century + 4 * quarter + year) / 100 = 4 * era + century ∧
      (400 * era + 100 * century + 4 * quarter + year) / 400 = era := by
  omega

/-- A year that starts in March has 366 days only if a leap year follows. -/
theorem marchYear_spec (z : Int) :
    365 * (marchYear z).1 + (marchYear z).1 / 4 - (marchYear z).1 / 100 + (marchYear z).1 / 400 +
        (marchYear z).2 = z ∧
      (marchYear z).2 ≤ 365 ∧ ((marchYear z).2 = 365 → isLeap ((marchYear z).1 + 1) = true) := by
  have hn : (z % 146097).toNat < 146097 := by omega
  have hz : z = 146097 * (z / 146097) + (z % 146097).toNat := by omega
  unfold marchYear
  generalize (z % 146097).toNat = n at hn hz
  generalize z / 146097 = era at hz
  dsimp only
  obtain ⟨century, hcentury⟩ : ∃ c, c = min 3 (n / 36524) := ⟨_, rfl⟩
  obtain ⟨quarter, hquarter⟩ : ∃ q, q = (n - 36524 * century) / 1461 := ⟨_, rfl⟩
  obtain ⟨rest, hrest⟩ : ∃ r, r = n - 36524 * century - 1461 * quarter := ⟨_, rfl⟩
  obtain ⟨year, hyear⟩ : ∃ y, y = min 3 (rest / 365) := ⟨_, rfl⟩
  rw [← hcentury, ← hquarter, ← hrest, ← hyear]
  have hlong : n - 36524 * century ≤ 36524 ∧ (century < 3 → n - 36524 * century ≤ 36523) := by
    omega
  have hquarter24 : quarter ≤ 24 := by omega
  have hrest1460 : rest ≤ 1460 := by omega
  have hdiv := @marchYear_div era century quarter year (by omega) hquarter24 (by omega)
  rw [hdiv.1, hdiv.2.1, hdiv.2.2]
  refine ⟨by omega, by omega, fun hlast => ?_⟩
  -- The last day is the last of four years, which are not the last 25th of a century cut short.
  have hyear3 : year = 3 := by omega
  have hlast4 : quarter = 24 → century = 3 := by omega
  rw [isLeap_iff]
  omega

/-- The months from March on begin at the days of the linear formula. -/
theorem marchDate_spec {doy : Nat} (h : doy ≤ 365) :
    3 ≤ (marchDate doy).1 ∧ (marchDate doy).1 ≤ 14 ∧ 1 ≤ (marchDate doy).2 ∧
      (979 * (marchDate doy).1 - 2919) / 32 + (marchDate doy).2 = doy + 1 ∧
      (marchDate doy).1 = (5 * doy + 2) / 153 + 3 := by
  unfold marchDate
  dsimp only
  omega

/-- The date by the year that starts in March and the day of it. -/
theorem dateOf_spec (days : Int) :
    ∃ (y : Int) (doy m d : Nat),
      (365 * y + y / 4 - y / 100 + y / 400 + doy = days + 719468 ∧
        doy ≤ 365 ∧ (doy = 365 → isLeap (y + 1) = true)) ∧
      (3 ≤ m ∧ m ≤ 14 ∧ 1 ≤ d ∧ (979 * m - 2919) / 32 + d = doy + 1 ∧
        m = (5 * doy + 2) / 153 + 3) ∧
      dateOf days = if 12 < m then (y + 1, m - 12, d) else (y, m, d) :=
  have hyear := marchYear_spec (days + 719468)
  ⟨_, _, _, _, hyear, marchDate_spec hyear.2.1, rfl⟩

/-- **The date exists.** The last day of a year of 366 is the 29th of February. -/
theorem dateOf_isDate (days : Int) :
    isDate (dateOf days).1 (dateOf days).2.1 (dateOf days).2.2 = true := by
  obtain ⟨y, doy, m, d, ⟨-, hdoy, hleap⟩, ⟨h3, h14, h1, hday, hm⟩, heq⟩ := dateOf_spec days
  rw [heq]
  have hfebruary : m = 14 → d ≤ 29 := by omega
  have hleapDay : m = 14 → d = 29 → isLeap (y + 1) = true := fun _ _ => hleap (by omega)
  clear hleap
  interval_cases m <;> simp only [isDate, monthLength] <;> grind

/-- **The formula takes the date back to the days.** -/
theorem daysSinceEpoch_dateOf (days : Int) :
    daysSinceEpoch (dateOf days).1 (dateOf days).2.1 (dateOf days).2.2 = days := by
  obtain ⟨y, doy, m, d, ⟨hyear, -, -⟩, ⟨h3, h14, h1, hday, -⟩, heq⟩ := dateOf_spec days
  rw [heq]
  unfold daysSinceEpoch
  split
  · have hm : m - 12 < 3 := by omega
    have hmonth : ((m - 12 : Nat) : Int) + 12 = m := by omega
    dsimp only
    rw [if_pos hm, if_pos hm, hmonth, add_sub_cancel_right, quarter_eq, century_quarter_eq]
    omega
  · have hm : ¬ m < 3 := by omega
    dsimp only
    rw [if_neg hm, if_neg hm, quarter_eq, century_quarter_eq]
    omega

/-- The days from 0000-03-01 to 9999-12-31 have years of four digits. -/
theorem dateOf_year {days : Int} (hlo : -719468 ≤ days) (hhi : days ≤ 2932896) :
    0 ≤ (dateOf days).1 ∧ (dateOf days).1 ≤ 9999 := by
  obtain ⟨y, doy, m, d, ⟨hyear, hdoy, -⟩, ⟨h3, h14, h1, hday, -⟩, heq⟩ := dateOf_spec days
  have hlast : y ≠ -1 := by
    rintro rfl
    omega
  rw [heq]
  split
  · constructor <;> dsimp only <;> omega
  · constructor <;> dsimp only <;> omega

example : dateOf (-1) = (1969, 12, 31) ∧ dateOf 11016 = (2000, 2, 29) := by decide

end Calendar
