import Mathlib.Algebra.Order.Ring.Int
import Mathlib.Tactic.SplitIfs

set_option autoImplicit false

/-! # Gregorian dates by day numbers

Days are counted from 1970-01-01, in the proleptic Gregorian calendar. `newYear y` is the number of
January 1st of year `y` and `year_spec` places a day in its year; the month comes from the lengths
of the months of that year.

The week year of a day counts weeks from Sunday to Saturday, where week 1 of a year is the one that
contains January 1st. By `weekYear_eq` it is the calendar year, except in the last days of December
that share their week with January 1st. -/

namespace Gregorian

/-! ## Years -/

def isLeap (y : ℤ) : Bool := y % 4 == 0 && (y % 100 != 0 || y % 400 == 0)

def yearLength (y : ℤ) : ℕ := if isLeap y then 366 else 365

/-- The day number of January 1st. -/
def newYear (y : ℤ) : ℤ :=
  365 * (y - 1) + (y - 1) / 4 - (y - 1) / 100 + (y - 1) / 400 - 719162

theorem isLeap_iff (y : ℤ) : isLeap y = true ↔ y % 4 = 0 ∧ (y % 100 ≠ 0 ∨ y % 400 = 0) := by
  simp [isLeap]

theorem newYear_succ (y : ℤ) : newYear (y + 1) = newYear y + yearLength y := by
  unfold newYear yearLength
  split_ifs with h
  · rw [isLeap_iff] at h
    push_cast
    omega
  · rw [isLeap_iff] at h
    push_cast
    omega

/-- January 1st after `a`, `b`, `c` and `e` whole periods of 400, 100, 4 and 1 years. -/
theorem newYear_periods {a b c e : ℤ} (hb : 0 ≤ b ∧ b ≤ 3) (hc : 0 ≤ c ∧ c ≤ 24)
    (he : 0 ≤ e ∧ e ≤ 3) :
    newYear (400 * a + 100 * b + 4 * c + e + 1)
      = 146097 * a + 36524 * b + 1461 * c + 365 * e - 719162 := by
  have h₄ : (400 * a + 100 * b + 4 * c + e + 1 - 1) / 4 = 100 * a + 25 * b + c := by omega
  have h₁₀₀ : (400 * a + 100 * b + 4 * c + e + 1 - 1) / 100 = 4 * a + b := by omega
  have h₄₀₀ : (400 * a + 100 * b + 4 * c + e + 1 - 1) / 400 = a := by omega
  unfold newYear
  rw [h₄, h₁₀₀, h₄₀₀]
  omega

/-- The year of a day: whole periods of 400, 100, 4 and 1 years, where the last day of a period of
    400 or of 4 years counts one period of 100 or of 1 year too many. -/
def year (day : ℤ) : ℤ :=
  let d := day + 719162
  let d₁ := d % 146097
  let d₂ := d₁ % 36524
  let d₃ := d₂ % 1461
  let y := 400 * (d / 146097) + 100 * (d₁ / 36524) + 4 * (d₂ / 1461) + d₃ / 365
  if d₁ / 36524 = 4 ∨ d₃ / 365 = 4 then y else y + 1

/-- A day lies in its year. -/
theorem year_spec (day : ℤ) :
    newYear (year day) ≤ day ∧ day < newYear (year day) + yearLength (year day) := by
  unfold year
  simp only
  obtain ⟨a, d₁, ha, hd₁, hday⟩ : ∃ a d₁, (day + 719162) / 146097 = a ∧
      (day + 719162) % 146097 = d₁ ∧ day + 719162 = 146097 * a + d₁ ∧ 0 ≤ d₁ ∧ d₁ < 146097 :=
    ⟨_, _, rfl, rfl, by omega⟩
  rw [ha, hd₁]
  obtain ⟨b, d₂, hb, hd₂, hdiv₁⟩ : ∃ b d₂, d₁ / 36524 = b ∧ d₁ % 36524 = d₂ ∧
      d₁ = 36524 * b + d₂ ∧ 0 ≤ d₂ ∧ d₂ < 36524 := ⟨_, _, rfl, rfl, by omega⟩
  rw [hb, hd₂]
  obtain ⟨c, d₃, hc, hd₃, hdiv₂⟩ : ∃ c d₃, d₂ / 1461 = c ∧ d₂ % 1461 = d₃ ∧
      d₂ = 1461 * c + d₃ ∧ 0 ≤ d₃ ∧ d₃ < 1461 := ⟨_, _, rfl, rfl, by omega⟩
  rw [hc, hd₃]
  obtain ⟨e, he⟩ : ∃ e, d₃ / 365 = e := ⟨_, rfl⟩
  rw [he]
  have hbound : 0 ≤ c ∧ c ≤ 24 := by omega
  rcases (by omega : b = 4 ∨ b ≤ 3 ∧ e = 4 ∨ b ≤ 3 ∧ e ≤ 3) with hb₄ | ⟨hb₃, he₄⟩ | ⟨hb₃, he₃⟩
  · -- the last day of 400 years
    have hy : 400 * a + 100 * b + 4 * c + e = 400 * a + 100 * 3 + 4 * 24 + 3 + 1 := by omega
    have hleap : isLeap (400 * a + 100 * 3 + 4 * 24 + 3 + 1) = true := by
      rw [isLeap_iff]
      omega
    rw [if_pos (Or.inl hb₄), hy, newYear_periods (by omega) (by omega) (by omega)]
    unfold yearLength
    rw [if_pos hleap]
    omega
  · -- the last day of 4 years
    have hy : 400 * a + 100 * b + 4 * c + e = 400 * a + 100 * b + 4 * c + 3 + 1 := by omega
    have hleap : isLeap (400 * a + 100 * b + 4 * c + 3 + 1) = true := by
      rw [isLeap_iff]
      omega
    rw [if_pos (Or.inr he₄), hy, newYear_periods (by omega) hbound (by omega)]
    unfold yearLength
    rw [if_pos hleap]
    omega
  · have hlength : (365 : ℤ) ≤ yearLength (400 * a + 100 * b + 4 * c + e + 1) := by
      unfold yearLength
      split_ifs <;> omega
    rw [if_neg (by omega), newYear_periods (by omega) hbound (by omega)]
    omega

/-! ## Months -/

/-- Where `n` falls among consecutive stretches of the given lengths: the number of the stretch and
    the offset in it. -/
def locate : List ℕ → ℕ → ℕ × ℕ
  | [], n => (0, n)
  | k :: ks, n =>
    if n < k then (0, n)
    else ((locate ks (n - k)).1 + 1, (locate ks (n - k)).2)

theorem locate_append_of_lt (k : ℕ) {ks : List ℕ} {n : ℕ} (h : n < ks.sum) :
    (locate (ks ++ [k]) n).1 < ks.length := by
  induction ks generalizing n with
  | nil => exact absurd h (Nat.not_lt_zero n)
  | cons j ks ih =>
    rw [List.sum_cons] at h
    rw [List.cons_append, locate, List.length_cons]
    split_ifs with hn
    · omega
    · have := ih (n := n - j) (by omega)
      simp only
      omega

theorem locate_append_of_le {k : ℕ} {ks : List ℕ} {n : ℕ} (h : ks.sum ≤ n)
    (hn : n < ks.sum + k) : locate (ks ++ [k]) n = (ks.length, n - ks.sum) := by
  induction ks generalizing n with
  | nil =>
    rw [List.nil_append, locate, if_pos (by simpa using hn)]
    rfl
  | cons j ks ih =>
    rw [List.sum_cons] at h hn
    rw [List.cons_append, locate, if_neg (by omega), ih (by omega) (by omega), List.length_cons,
      List.sum_cons]
    simp only [Prod.mk.injEq, true_and]
    omega

/-- The months before December, in days. -/
def monthsBeforeDecember (leap : Bool) : List ℕ :=
  [31, if leap then 29 else 28, 31, 30, 31, 30, 31, 31, 30, 31, 30]

def monthLengths (leap : Bool) : List ℕ := monthsBeforeDecember leap ++ [31]

/-- Days since January 1st. -/
def dayOfYear (day : ℤ) : ℕ := (day - newYear (year day)).toNat

/-- The month of a day, from 1 to 12. -/
def month (day : ℤ) : ℕ := (locate (monthLengths (isLeap (year day))) (dayOfYear day)).1 + 1

/-- The day of the month, from 1. -/
def dayOfMonth (day : ℤ) : ℕ := (locate (monthLengths (isLeap (year day))) (dayOfYear day)).2 + 1

theorem sum_monthsBeforeDecember (y : ℤ) :
    (monthsBeforeDecember (isLeap y)).sum + 31 = yearLength y := by
  unfold yearLength monthsBeforeDecember
  cases isLeap y <;> rfl

/-- December is the last 31 days of the year. -/
theorem december_iff (day : ℤ) :
    (month day = 12 ∧ newYear (year day + 1) = day + (32 - dayOfMonth day)) ∨
    (month day < 12 ∧ day + 31 < newYear (year day + 1)) := by
  have hspec := year_spec day
  have hsum := sum_monthsBeforeDecember (year day)
  have hdoy : (dayOfYear day : ℤ) = day - newYear (year day) := by
    unfold dayOfYear
    omega
  rw [newYear_succ]
  unfold month dayOfMonth monthLengths
  rcases Nat.lt_or_ge (dayOfYear day) (monthsBeforeDecember (isLeap (year day))).sum with h | h
  · have hlt := locate_append_of_lt 31 h
    have hlength : (monthsBeforeDecember (isLeap (year day))).length = 11 := rfl
    refine Or.inr ⟨by omega, by omega⟩
  · have hlocate := locate_append_of_le (k := 31) h (by omega)
    rw [hlocate]
    refine Or.inl ⟨rfl, ?_⟩
    push_cast
    omega

/-! ## Weeks from Sunday to Saturday -/

/-- The day of the week, from 0 for Sunday; 1970-01-01 was a Thursday. -/
def weekday (day : ℤ) : ℤ := (day + 4) % 7

/-- The Sunday on which week 1 of year `y` begins, the week that contains January 1st. -/
def firstWeek (y : ℤ) : ℤ := newYear y - weekday (newYear y)

/-- The year whose weeks a day is counted in. -/
def weekYear (day : ℤ) : ℤ :=
  if firstWeek (year day + 1) ≤ day then year day + 1 else year day

/-- The day shares its week with the next January 1st. -/
def InNextFirstWeek (day : ℤ) : Prop :=
  month day = 12 ∧ 32 ≤ dayOfMonth day + (6 - weekday day)

instance (day : ℤ) : Decidable (InNextFirstWeek day) :=
  inferInstanceAs (Decidable (_ ∧ _))

theorem firstWeek_le_iff (day : ℤ) : firstWeek (year day + 1) ≤ day ↔ InNextFirstWeek day := by
  unfold firstWeek weekday InNextFirstWeek weekday
  have hspec := year_spec day
  rw [← newYear_succ] at hspec
  rcases december_iff day with ⟨hmonth, hdays⟩ | ⟨hmonth, hdays⟩
  · rw [hmonth]
    omega
  · omega

theorem weekYear_eq (day : ℤ) :
    weekYear day = if InNextFirstWeek day then year day + 1 else year day := by
  unfold weekYear
  simp only [firstWeek_le_iff]

end Gregorian
