import HadoopExamples.Library.Gregorian

set_option autoImplicit false

/-! # Calendar dates

A calendar is a rule that says which years are leap years, and the day numbers of its years; months
are those of the Gregorian calendar. Later days have later dates (`Calendar.date_lt`). The civil date
of a day is its date in the Julian calendar until 1582-10-04, and in the Gregorian calendar from the
next day on, which is 1582-10-15. -/

structure Date where
  year : ℤ
  month : ℕ
  dayOfMonth : ℕ
deriving DecidableEq

/-- The date comes before another one. -/
def Date.Before (d d' : Date) : Prop :=
  d.year < d'.year ∨ (d.year = d'.year ∧
    (d.month < d'.month ∨ (d.month = d'.month ∧ d.dayOfMonth < d'.dayOfMonth)))

instance (d d' : Date) : Decidable (d.Before d') := inferInstanceAs (Decidable (_ ∨ _))

theorem Date.Before.trans {d d' d'' : Date} (h : d.Before d') (h' : d'.Before d'') :
    d.Before d'' := by
  unfold Date.Before at *
  omega

theorem Date.Before.irrefl (d : Date) : ¬ d.Before d := by
  unfold Date.Before
  omega

/-- The month and the day of the month can be written with two digits. -/
structure Date.TwoDigits (d : Date) : Prop where
  month : d.month < 100
  dayOfMonth : d.dayOfMonth < 100

/-! ## Days in stretches -/

namespace Gregorian

/-- A later day is in a later stretch, or later in the same one. -/
theorem locate_lt {ks : List ℕ} {m n : ℕ} (h : m < n) :
    (locate ks m).1 < (locate ks n).1 ∨
      ((locate ks m).1 = (locate ks n).1 ∧ (locate ks m).2 < (locate ks n).2) := by
  induction ks generalizing m n with
  | nil => exact Or.inr ⟨rfl, h⟩
  | cons k ks ih =>
    unfold locate
    by_cases hn : n < k
    · rw [if_pos (by omega), if_pos hn]
      exact Or.inr ⟨rfl, h⟩
    · by_cases hm : m < k
      · rw [if_pos hm, if_neg hn]
        exact Or.inl (Nat.succ_pos _)
      · rw [if_neg hm, if_neg hn]
        have := ih (m := m - k) (n := n - k) (by omega)
        simp only
        omega

theorem locate_bounds {ks : List ℕ} {b n : ℕ} (hb : ∀ k ∈ ks, k ≤ b) (h : n < ks.sum) :
    (locate ks n).1 < ks.length ∧ (locate ks n).2 < b := by
  induction ks generalizing n with
  | nil => exact absurd h (Nat.not_lt_zero n)
  | cons k ks ih =>
    have hk := hb k List.mem_cons_self
    rw [List.sum_cons] at h
    rw [locate, List.length_cons]
    split_ifs with hn
    · exact ⟨Nat.succ_pos _, by omega⟩
    · obtain ⟨hmonth, hday⟩ := ih (fun k hk => hb k (List.mem_cons_of_mem _ hk))
        (n := n - k) (by omega)
      exact ⟨Nat.succ_lt_succ hmonth, hday⟩

end Gregorian

/-! ## Calendars -/

structure Calendar where
  isLeap : ℤ → Bool
  /-- The day number of January 1st. -/
  newYear : ℤ → ℤ
  year : ℤ → ℤ
  newYear_succ : ∀ y, newYear (y + 1) = newYear y + (Gregorian.monthLengths (isLeap y)).sum
  year_spec : ∀ day, newYear (year day) ≤ day ∧ day < newYear (year day + 1)

namespace Calendar

variable (c : Calendar)

/-- The month and the day since its beginning, both from 0. -/
def monthAndDay (day : ℤ) : ℕ × ℕ :=
  Gregorian.locate (Gregorian.monthLengths (c.isLeap (c.year day)))
    (day - c.newYear (c.year day)).toNat

def date (day : ℤ) : Date where
  year := c.year day
  month := (c.monthAndDay day).1 + 1
  dayOfMonth := (c.monthAndDay day).2 + 1

theorem newYear_mono {y y' : ℤ} (h : y ≤ y') : c.newYear y ≤ c.newYear y' := by
  induction y', h using Int.leInduction with
  | base => exact le_refl _
  | succ y' _ ih =>
    rw [c.newYear_succ]
    omega

/-- Later days have later dates. -/
theorem date_lt {day day' : ℤ} (h : day < day') : (c.date day).Before (c.date day') := by
  obtain ⟨hstart, hend⟩ := c.year_spec day
  obtain ⟨hstart', hend'⟩ := c.year_spec day'
  have hyear : c.year day ≤ c.year day' := by
    by_contra hlater
    have hmono : c.newYear (c.year day' + 1) ≤ c.newYear (c.year day) := c.newYear_mono (by omega)
    omega
  rcases hyear.lt_or_eq with hlt | heq
  · exact Or.inl hlt
  · refine Or.inr ⟨heq, ?_⟩
    have hdays : (day - c.newYear (c.year day)).toNat < (day' - c.newYear (c.year day)).toNat := by
      omega
    unfold date monthAndDay
    simp only [← heq]
    rcases Gregorian.locate_lt hdays with hmonth | ⟨hmonth, hday⟩
    · exact Or.inl (Nat.succ_lt_succ hmonth)
    · exact Or.inr ⟨congrArg Nat.succ hmonth, Nat.succ_lt_succ hday⟩

theorem date_twoDigits (day : ℤ) : (c.date day).TwoDigits := by
  obtain ⟨hstart, hend⟩ := c.year_spec day
  rw [c.newYear_succ] at hend
  have hlengths : ∀ leap, (Gregorian.monthLengths leap).length = 12 ∧
      ∀ k ∈ Gregorian.monthLengths leap, k ≤ 31 := by
    decide
  obtain ⟨hmonths, hlength⟩ := hlengths (c.isLeap (c.year day))
  obtain ⟨hmonth, hday⟩ := Gregorian.locate_bounds hlength
    (n := (day - c.newYear (c.year day)).toNat) (by omega)
  unfold date monthAndDay
  exact ⟨by simp only; omega, by simp only; omega⟩

/-! ## The Gregorian and the Julian calendar -/

def gregorian : Calendar where
  isLeap := Gregorian.isLeap
  newYear := Gregorian.newYear
  year := Gregorian.year
  newYear_succ y := by
    have hsum := Gregorian.sum_monthsBeforeDecember y
    rw [Gregorian.newYear_succ]
    unfold Gregorian.monthLengths
    rw [List.sum_append, List.sum_singleton]
    omega
  year_spec day := by
    rw [Gregorian.newYear_succ]
    exact Gregorian.year_spec day

/-- Every fourth year is a leap year. January 1st of year 1 is two days before that of the Gregorian
    calendar. -/
def julian : Calendar where
  isLeap y := y % 4 == 0
  newYear y := 365 * (y - 1) + (y - 1) / 4 - 719164
  year day :=
    let d := day + 719164
    if d % 1461 / 365 = 4 then 4 * (d / 1461) + 4 else 4 * (d / 1461) + d % 1461 / 365 + 1
  newYear_succ y := by
    have hsum : ∀ leap, (Gregorian.monthLengths leap).sum = if leap then 366 else 365 := by decide
    rw [hsum]
    by_cases hleap : y % 4 = 0
    · rw [if_pos (beq_iff_eq.2 hleap)]
      omega
    · rw [if_neg (fun h => hleap (beq_iff_eq.1 h))]
      omega
  year_spec day := by
    simp only
    split_ifs <;> omega

/-- 1582-10-15. -/
def gregorianCutover : ℤ := -141427

def civilDate (day : ℤ) : Date :=
  if day < gregorianCutover then julian.date day else gregorian.date day

theorem civilDate_lt {day day' : ℤ} (h : day < day') :
    (civilDate day).Before (civilDate day') := by
  unfold civilDate
  split_ifs with hday hday'
  · exact julian.date_lt h
  · -- from the last Julian to the first Gregorian date
    have hcutover : (julian.date (gregorianCutover - 1)).Before
        (gregorian.date gregorianCutover) := by
      decide
    have hbefore : (julian.date day).Before (gregorian.date gregorianCutover) := by
      rcases (by omega : day < gregorianCutover - 1 ∨ day = gregorianCutover - 1) with hlt | rfl
      · exact (julian.date_lt hlt).trans hcutover
      · exact hcutover
    rcases (by omega : gregorianCutover < day' ∨ gregorianCutover = day') with hlt | rfl
    · exact hbefore.trans (gregorian.date_lt hlt)
    · exact hbefore
  · omega
  · exact gregorian.date_lt h

theorem civilDate_twoDigits (day : ℤ) : (civilDate day).TwoDigits := by
  unfold civilDate
  split_ifs
  · exact julian.date_twoDigits day
  · exact gregorian.date_twoDigits day

example : civilDate (gregorianCutover - 1) = ⟨1582, 10, 4⟩ ∧
    civilDate gregorianCutover = ⟨1582, 10, 15⟩ := by
  decide

end Calendar
