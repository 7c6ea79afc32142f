import HadoopExamples.Library.Decimal
import HadoopExamples.Library.Gregorian
import HadoopExamples.Library.Partition
import HadoopExamples.Library.Sql

set_option autoImplicit false

/-! # Account devices, partitioned by year and month

`hdfs_partitions.py` partitions the account devices by `date_format(.., "YYYY-MM")` and then reads
the partitions of a year. The letter `Y` of `SimpleDateFormat` is the week year, so a row of the
last days of December goes to the next year if these days share their week with January 1st, and
only then (`partitions_follow_calendar_iff`). -/

namespace HadoopExamples.Spark

open Gregorian

/-! ## Timestamps and their text -/

/-- A time zone: the seconds that local time is ahead of UTC at an instant, which is given in
    seconds since the epoch. -/
structure TimeZone where
  offset : ℤ → ℤ
  less_than_a_day : ∀ t, -86400 < offset t ∧ offset t < 86400

structure LocalDateTime where
  day : ℤ
  secondOfDay : ℤ
deriving DecidableEq

/-- `from_unixtime`, which Spark gives as text and `date_format` reads again. -/
def fromUnixtime (zone : TimeZone) (seconds : ℤ) : LocalDateTime :=
  let localSeconds := seconds + zone.offset seconds
  ⟨localSeconds / 86400, localSeconds % 86400⟩

/-- The items of the `SimpleDateFormat` patterns below. -/
inductive PatternItem where
  | yyyy
  | YYYY
  | MM
  | text (c : Char)

def PatternItem.format (t : LocalDateTime) : PatternItem → List Char
  | yyyy => Decimal.zeroPad 4 (year t.day).toNat
  | YYYY => Decimal.zeroPad 4 (weekYear t.day).toNat
  | MM => Decimal.zeroPad 2 (month t.day)
  | text c => [c]

def dateFormat (t : LocalDateTime) (pattern : List PatternItem) : List Char :=
  pattern.flatMap (PatternItem.format t)

/-! ## The tables -/

/-- A row of `account_devices`. -/
structure AccountDevice where
  id : ℤ
  accountId : ℤ
  deviceId : ℤ
  /-- milliseconds since the epoch -/
  activationDate : ℤ
  accountDeviceId : String

/-- A row of `account_devices_better`, and of `account_devices_partitioned`. -/
structure AccountDeviceBetter where
  id : ℤ
  accountId : ℤ
  deviceModelId : ℤ
  activationDate : ℤ
  accountDeviceId : String
  activationTimestamp : LocalDateTime
  yearMonth : List Char
deriving DecidableEq

/-- `"YYYY-MM"` -/
def yearMonthPattern : List PatternItem := [.YYYY, .text '-', .MM]

/-- `from_unixtime(activation_date / 1000)` -/
def activationTimestamp (zone : TimeZone) (row : AccountDevice) : LocalDateTime :=
  fromUnixtime zone (row.activationDate.tdiv 1000)

/-- The row of `accountDeviceBetterDF`. -/
def accountDeviceBetter (zone : TimeZone) (row : AccountDevice) : AccountDeviceBetter where
  id := row.id
  accountId := row.accountId
  deviceModelId := row.deviceId
  activationDate := row.activationDate
  accountDeviceId := row.accountDeviceId
  activationTimestamp := activationTimestamp zone row
  yearMonth := dateFormat (activationTimestamp zone row) yearMonthPattern

def accountDevicesBetter (zone : TimeZone) (accountDevices : List AccountDevice) :
    List AccountDeviceBetter :=
  accountDevices.map (accountDeviceBetter zone)

/-- `populateAccountDevicesSQL` on the empty partitioned table. -/
def populateAccountDevices (better : List AccountDeviceBetter) :
    List (List Char × List AccountDeviceBetter) :=
  Partition.partitionBy AccountDeviceBetter.yearMonth better

/-- `select * from account_devices_partitioned where year_month LIKE 'Y%'`, with the year in four
    digits. -/
def selectYear (y : ℕ) (partitioned : List (List Char × List AccountDeviceBetter)) :
    List AccountDeviceBetter :=
  Partition.scan (Sql.like (Decimal.zeroPad 4 y ++ ['%'])) partitioned

/-! ## The calendar -/

/-- The year and month of a timestamp, `yyyy-MM`. -/
def calendarYearMonth (t : LocalDateTime) : List Char :=
  dateFormat t [.yyyy, .text '-', .MM]

/-- A row whose activation date is not before the epoch, with a local time that is a timestamp. -/
structure InRange (zone : TimeZone) (row : AccountDevice) : Prop where
  nonneg : 0 ≤ row.activationDate
  year_le : year (activationTimestamp zone row).day ≤ 9999

section Rows

variable {zone : TimeZone} {row : AccountDevice}

/-- West of Greenwich the first activations are still in 1969. -/
theorem InRange.le_year (h : InRange zone row) :
    1969 ≤ year (activationTimestamp zone row).day := by
  have hday : -1 ≤ (activationTimestamp zone row).day := by
    have hseconds : 0 ≤ row.activationDate.tdiv 1000 := Int.tdiv_nonneg h.nonneg (by omega)
    have hoffset := (zone.less_than_a_day (row.activationDate.tdiv 1000)).1
    simp only [activationTimestamp, fromUnixtime]
    omega
  have hnext := (year_spec (activationTimestamp zone row).day).2
  rw [← newYear_succ] at hnext
  unfold newYear at hnext
  omega

/-- The text of `year_month`, from its week year on. -/
theorem yearMonth_eq (zone : TimeZone) (row : AccountDevice) :
    (accountDeviceBetter zone row).yearMonth =
      Decimal.zeroPad 4 (weekYear (activationTimestamp zone row).day).toNat ++
        '-' :: Decimal.zeroPad 2 (month (activationTimestamp zone row).day) := by
  simp [accountDeviceBetter, dateFormat, yearMonthPattern, PatternItem.format]

theorem yearMonth_eq_iff (h : InRange zone row) :
    (accountDeviceBetter zone row).yearMonth
        = calendarYearMonth (activationTimestamp zone row) ↔
      ¬ InNextFirstWeek (activationTimestamp zone row).day := by
  have hyear := h.le_year
  have hcalendar : calendarYearMonth (activationTimestamp zone row) =
      Decimal.zeroPad 4 (year (activationTimestamp zone row).day).toNat ++
        '-' :: Decimal.zeroPad 2
          (month (activationTimestamp zone row).day) := by
    simp [calendarYearMonth, dateFormat, PatternItem.format]
  rw [yearMonth_eq, hcalendar, List.append_left_inj, (Decimal.zeroPad_injective 4).eq_iff,
    weekYear_eq]
  split_ifs with hnext
  · simp only [hnext, not_true_eq_false, iff_false]
    omega
  · simp only [hnext, not_false_eq_true]

/-- The pattern of a year asks for its four digits at the start. -/
theorem like_year_iff (y : ℕ) (s : List Char) :
    Sql.like (Decimal.zeroPad 4 y ++ ['%']) s = true ↔ Decimal.zeroPad 4 y <+: s := by
  have hdigits : ∀ c ∈ Decimal.zeroPad 4 y, c ≠ '%' ∧ c ≠ '_' := by
    intro c hc
    have hdigit := Decimal.isDigit_of_mem_zeroPad hc
    exact ⟨fun heq => by simp [heq] at hdigit, fun heq => by simp [heq] at hdigit⟩
  rw [Sql.like_append_percent hdigits, List.isPrefixOf_iff_prefix]

/-- A row outside these days of December is found under its calendar year, and no other. -/
theorem like_yearMonth_iff (h : InRange zone row)
    (hnext : ¬ InNextFirstWeek (activationTimestamp zone row).day) (y : ℕ) :
    Sql.like (Decimal.zeroPad 4 y ++ ['%']) (accountDeviceBetter zone row).yearMonth = true ↔
      year (activationTimestamp zone row).day = y := by
  have hle := h.le_year
  have hlt := h.year_le
  rw [like_year_iff, yearMonth_eq, weekYear_eq, if_neg hnext,
    Decimal.zeroPad_prefix_iff (by omega) (by omega) (by decide)]
  omega

/-- A row of these days is not found under its calendar year. -/
theorem not_like_yearMonth (h : InRange zone row)
    (hnext : InNextFirstWeek (activationTimestamp zone row).day) :
    ¬ Sql.like (Decimal.zeroPad 4
        (year (activationTimestamp zone row).day).toNat ++ ['%'])
      (accountDeviceBetter zone row).yearMonth = true := by
  have hle := h.le_year
  have hlt := h.year_le
  rw [like_year_iff, yearMonth_eq, weekYear_eq, if_pos hnext]
  rcases (by omega : year (activationTimestamp zone row).day < 9999 ∨
    year (activationTimestamp zone row).day = 9999) with hyear | hyear
  · rw [Decimal.zeroPad_prefix_iff (by omega) (by omega) (by decide)]
    omega
  · -- the week year has five digits
    rw [hyear, ← List.isPrefixOf_iff_prefix]
    exact Bool.false_ne_true

end Rows

/-- Of a table with activation dates in range, every `year_month` is the calendar year and month of
    the timestamp, and the query for each year returns the rows of that calendar year, both exactly
    if no timestamp is in the last days of a December that share their Sunday-to-Saturday week with
    January 1st. -/
theorem partitions_follow_calendar_iff (zone : TimeZone) (accountDevices : List AccountDevice)
    (hrange : ∀ row ∈ accountDevices, InRange zone row) :
    ((∀ row ∈ accountDevicesBetter zone accountDevices,
        row.yearMonth = calendarYearMonth row.activationTimestamp) ↔
      ∀ row ∈ accountDevices, ¬ InNextFirstWeek (activationTimestamp zone row).day) ∧
    ((∀ y : ℕ,
        (selectYear y (populateAccountDevices (accountDevicesBetter zone accountDevices))).Perm
          ((accountDevicesBetter zone accountDevices).filter fun row =>
            year row.activationTimestamp.day = y)) ↔
      ∀ row ∈ accountDevices, ¬ InNextFirstWeek (activationTimestamp zone row).day) := by
  have hselect : ∀ y,
      (selectYear y (populateAccountDevices (accountDevicesBetter zone accountDevices))).Perm
        ((accountDevicesBetter zone accountDevices).filter fun row =>
          Sql.like (Decimal.zeroPad 4 y ++ ['%']) row.yearMonth) :=
    fun y => Partition.scan_partitionBy _ _ _
  refine ⟨?_, fun h => ?_, fun h y => ?_⟩
  · simp only [accountDevicesBetter, List.forall_mem_map]
    exact forall₂_congr fun row hrow => yearMonth_eq_iff (hrange row hrow)
  · intro row hrow hnext
    have hle := (hrange row hrow).le_year
    have hbetter : accountDeviceBetter zone row ∈ accountDevicesBetter zone accountDevices :=
      List.mem_map_of_mem hrow
    have hyear : year (activationTimestamp zone row).day
        = (year (activationTimestamp zone row).day).toNat := by omega
    have hselected := (h _).mem_iff.2 (List.mem_filter.2 ⟨hbetter, decide_eq_true hyear⟩)
    have hlike := (List.mem_filter.1 ((hselect _).mem_iff.1 hselected)).2
    exact not_like_yearMonth (hrange row hrow) hnext hlike
  · refine (hselect y).trans (List.Perm.of_eq (List.filter_congr fun better hbetter => ?_))
    obtain ⟨row, hrow, rfl⟩ := List.mem_map.1 hbetter
    rw [Bool.eq_iff_iff, decide_eq_true_iff]
    exact like_yearMonth_iff (hrange row hrow) (h row hrow) y

def utc : TimeZone := ⟨fun _ => 0, fun _ => by omega⟩

/-- The rows that `accountDeviceDF.show()` prints. -/
def shown : List AccountDevice :=
  [⟨48692, 32443, 29, 1393242509000, "7351fed1-f344-4cd"⟩,
    ⟨48693, 32444, 4, 1353649861000, "6da22278-ff7a-461"⟩,
    ⟨48694, 32445, 9, 1331819465000, "cb993b85-6775-407"⟩]

theorem partitions_follow_calendar_shown :
    (∀ row ∈ accountDevicesBetter utc shown,
      row.yearMonth = calendarYearMonth row.activationTimestamp) ∧
    ∀ y : ℕ, (selectYear y (populateAccountDevices (accountDevicesBetter utc shown))).Perm
      ((accountDevicesBetter utc shown).filter fun row => year row.activationTimestamp.day = y) := by
  have hrange : ∀ row ∈ shown, InRange utc row := by
    intro row hrow
    rw [shown, List.mem_cons, List.mem_cons, List.mem_singleton] at hrow
    rcases hrow with rfl | rfl | rfl <;> exact ⟨by decide, by decide⟩
  have hnext : ∀ row ∈ shown, ¬ InNextFirstWeek (activationTimestamp utc row).day := by decide
  have hiff := partitions_follow_calendar_iff utc shown hrange
  exact ⟨hiff.1.2 hnext, hiff.2.2 hnext⟩

/-- Sunday 2012-12-30, at noon in UTC. -/
def newYearsWeek : AccountDevice := ⟨1, 1, 1, 1356868800000, ""⟩

/-- A row of 2012 is stored under 2013-12, and the query for 2012 does not return it. -/
theorem partitions_newYearsWeek :
    year (activationTimestamp utc newYearsWeek).day = 2012 ∧
    (accountDeviceBetter utc newYearsWeek).yearMonth = "2013-12".toList ∧
    selectYear 2012 (populateAccountDevices (accountDevicesBetter utc [newYearsWeek])) = [] ∧
    ¬ (selectYear 2012 (populateAccountDevices (accountDevicesBetter utc [newYearsWeek]))).Perm
      ((accountDevicesBetter utc [newYearsWeek]).filter fun row =>
        year row.activationTimestamp.day = 2012) := by
  decide

end HadoopExamples.Spark
