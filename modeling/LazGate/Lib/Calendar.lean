import Mathlib.Data.Int.Basic
import Mathlib.Tactic

/-!
# The Gregorian calendar

Days are counted from the first of January of the year 1; the calendar is extended to both sides.
The year, the month and the day of the month grow with the number of the day.
-/

namespace LazGate.Calendar

def isLeap (year : ℤ) : Bool :=
  year % 4 == 0 && (year % 100 != 0 || year % 400 == 0)

/-- The number of the year's first day. -/
def daysBefore (year : ℤ) : ℤ :=
  365 * (year - 1) + (year - 1) / 4 - (year - 1) / 100 + (year - 1) / 400

/-- The year of a day, by cycles of 400, 100, 4 and 1 years. The last cycle of 100 years and the
last year of four have a day more than the others. -/
def year (day : ℤ) : ℤ :=
  let n400 := day / 146097
  let rest400 := day % 146097
  let n100 := min 3 (rest400 / 36524)
  let rest100 := rest400 - 36524 * n100
  let n4 := rest100 / 1461
  let rest4 := rest100 % 1461
  let n1 := min 3 (rest4 / 365)
  400 * n400 + 100 * n100 + 4 * n4 + n1 + 1

/-- How many days of the year are before the day. -/
def yearDay (day : ℤ) : ℕ :=
  (day - daysBefore (year day)).toNat

def monthLengths (leap : Bool) : List ℕ :=
  [31, if leap then 29 else 28, 31, 30, 31, 30, 31, 31, 30, 31, 30, 31]

/-- How many whole months are before the day, and how many days after these. -/
def locate : List ℕ → ℕ → ℕ × ℕ
  | [], d => (0, d)
  | n :: ns, d => if d < n then (0, d) else ((locate ns (d - n)).1 + 1, (locate ns (d - n)).2)

structure Date where
  year : ℤ
  month : ℕ
  day : ℕ
  deriving DecidableEq

def date (day : ℤ) : Date where
  year := year day
  month := (locate (monthLengths (isLeap (year day))) (yearDay day)).1 + 1
  day := (locate (monthLengths (isLeap (year day))) (yearDay day)).2 + 1

/-- The twenty-ninth of February. -/
example : date (daysBefore 2000 + 59) = ⟨2000, 2, 29⟩ := by decide

theorem daysBefore_cycles {n400 n100 n4 n1 : ℤ} (h100 : 0 ≤ n100 ∧ n100 ≤ 3)
    (h4 : 0 ≤ n4 ∧ n4 ≤ 24) (h1 : 0 ≤ n1 ∧ n1 ≤ 3) :
    daysBefore (400 * n400 + 100 * n100 + 4 * n4 + n1 + 1) =
      146097 * n400 + 36524 * n100 + 1461 * n4 + 365 * n1 := by
  have hquarter : (400 * n400 + 100 * n100 + 4 * n4 + n1 + 1 - 1) / 4 =
      100 * n400 + 25 * n100 + n4 := by omega
  have hcentury : (400 * n400 + 100 * n100 + 4 * n4 + n1 + 1 - 1) / 100 =
      4 * n400 + n100 := by omega
  have hcycle : (400 * n400 + 100 * n100 + 4 * n4 + n1 + 1 - 1) / 400 = n400 := by omega
  rw [daysBefore, hquarter, hcentury, hcycle]
  ring

/-- The fourth year of a cycle has 366 days, but for the last cycle of a century that is not the
fourth. -/
theorem daysBefore_cycles_succ {n400 n100 n4 n1 : ℤ} (h100 : 0 ≤ n100 ∧ n100 ≤ 3)
    (h4 : 0 ≤ n4 ∧ n4 ≤ 24) (h1 : 0 ≤ n1 ∧ n1 ≤ 3) :
    daysBefore (400 * n400 + 100 * n100 + 4 * n4 + n1 + 1 + 1) =
      146097 * n400 + 36524 * n100 + 1461 * n4 + 365 * n1 +
        if n1 < 3 ∨ n4 = 24 ∧ n100 < 3 then 365 else 366 := by
  by_cases hn1 : n1 < 3
  · rw [if_pos (.inl hn1), show 400 * n400 + 100 * n100 + 4 * n4 + n1 + 1 + 1 =
      400 * n400 + 100 * n100 + 4 * n4 + (n1 + 1) + 1 by ring, daysBefore_cycles h100 h4 (by omega)]
    ring
  obtain rfl : n1 = 3 := by omega
  by_cases hn4 : n4 < 24
  · rw [if_neg (by omega), show 400 * n400 + 100 * n100 + 4 * n4 + 3 + 1 + 1 =
      400 * n400 + 100 * n100 + 4 * (n4 + 1) + 0 + 1 by ring,
      daysBefore_cycles h100 (by omega) (by omega)]
    ring
  obtain rfl : n4 = 24 := by omega
  by_cases hn100 : n100 < 3
  · rw [if_pos (.inr ⟨rfl, hn100⟩), show 400 * n400 + 100 * n100 + 4 * 24 + 3 + 1 + 1 =
      400 * n400 + 100 * (n100 + 1) + 4 * 0 + 0 + 1 by ring,
      daysBefore_cycles (by omega) (by omega) (by omega)]
    ring
  obtain rfl : n100 = 3 := by omega
  rw [if_neg (by omega), show 400 * n400 + 100 * 3 + 4 * 24 + 3 + 1 + 1 =
    400 * (n400 + 1) + 100 * 0 + 4 * 0 + 0 + 1 by ring,
    daysBefore_cycles (by omega) (by omega) (by omega)]
  ring

theorem year_spec (day : ℤ) :
    daysBefore (year day) ≤ day ∧ day < daysBefore (year day + 1) := by
  rw [year]
  generalize hn400 : day / 146097 = n400
  generalize hr400 : day % 146097 = rest400
  generalize hn100 : min 3 (rest400 / 36524) = n100
  generalize hr100 : rest400 - 36524 * n100 = rest100
  generalize hn4 : rest100 / 1461 = n4
  generalize hr4 : rest100 % 1461 = rest4
  generalize hn1 : min 3 (rest4 / 365) = n1
  have h100 : 0 ≤ n100 ∧ n100 ≤ 3 := by omega
  have hrest100 : 0 ≤ rest100 ∧ (rest100 < 36524 ∨ n100 = 3 ∧ rest100 ≤ 36524) := by omega
  have h4 : 0 ≤ n4 ∧ n4 ≤ 24 := by omega
  have hrest4 : 0 ≤ rest4 ∧ rest4 < 1461 ∧ (rest4 < 1460 ∨ n4 < 24 ∨ n100 = 3) := by omega
  have h1 : 0 ≤ n1 ∧ n1 ≤ 3 := by omega
  have hday : day = 146097 * n400 + 36524 * n100 + 1461 * n4 + rest4 := by omega
  rw [daysBefore_cycles h100 h4 h1, daysBefore_cycles_succ h100 h4 h1]
  constructor
  · omega
  · split_ifs <;> omega

theorem daysBefore_mono {y y' : ℤ} (h : y ≤ y') : daysBefore y ≤ daysBefore y' := by
  simp only [daysBefore]
  omega

theorem year_mono {day day' : ℤ} (h : day ≤ day') : year day ≤ year day' := by
  by_contra hlt
  have hle : year day' + 1 ≤ year day := by omega
  have := daysBefore_mono hle
  have := year_spec day
  have := year_spec day'
  omega

theorem yearDay_lt_yearDay {day day' : ℤ} (h : day < day') (hyear : year day = year day') :
    yearDay day < yearDay day' := by
  have := (year_spec day).1
  have := (year_spec day').1
  simp only [yearDay, hyear] at *
  omega

theorem yearDay_lt (day : ℤ) : yearDay day < 366 := by
  have hspec := year_spec day
  have hlength : daysBefore (year day + 1) ≤ daysBefore (year day) + 366 := by
    simp only [daysBefore]
    omega
  simp only [yearDay]
  omega

theorem locate_lt (ns : List ℕ) {d e : ℕ} (h : d < e) :
    (locate ns d).1 < (locate ns e).1 ∨
      (locate ns d).1 = (locate ns e).1 ∧ (locate ns d).2 < (locate ns e).2 := by
  induction ns generalizing d e with
  | nil => exact .inr ⟨rfl, h⟩
  | cons n ns ih =>
    simp only [locate]
    by_cases hd : d < n
    · by_cases he : e < n
      · simp [hd, he, h]
      · simp [hd, he]
    · have he : ¬ e < n := by omega
      have hrest := ih (show d - n < e - n by omega)
      simp only [if_neg hd, if_neg he]
      omega

theorem locate_bounds : ∀ leap, ∀ d < 366,
    (locate (monthLengths leap) d).1 ≤ 12 ∧ (locate (monthLengths leap) d).2 ≤ 31 := by
  decide +kernel

theorem month_le (day : ℤ) : (date day).month ≤ 13 :=
  Nat.succ_le_succ (locate_bounds _ _ (yearDay_lt day)).1

theorem day_le (day : ℤ) : (date day).day ≤ 32 :=
  Nat.succ_le_succ (locate_bounds _ _ (yearDay_lt day)).2

/-- A later day has a later date. -/
theorem date_lt {day day' : ℤ} (h : day < day') :
    (date day).year < (date day').year ∨ (date day).year = (date day').year ∧
      ((date day).month < (date day').month ∨ (date day).month = (date day').month ∧
        (date day).day < (date day').day) := by
  rcases lt_or_eq_of_le (year_mono h.le) with hlt | heq
  · exact .inl hlt
  · have hloc := locate_lt (monthLengths (isLeap (year day))) (yearDay_lt_yearDay h heq)
    refine .inr ⟨heq, ?_⟩
    simp only [date, ← heq]
    omega

end LazGate.Calendar
