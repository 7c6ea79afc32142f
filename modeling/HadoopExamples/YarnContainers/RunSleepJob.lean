import Mathlib.Algebra.Order.Floor.Ring
import Mathlib.Data.Rat.Floor
import HadoopExamples.YarnContainers.SleepJobWithArray

set_option autoImplicit false

/-! # Submitting SleepJobWithArray

The client of the sleep job turns sleep times into numbers of records by a division that rounds up,
and submits whatever comes out. The tasks divide by these numbers and multiply one of them by the
number of reducers; `run_safe_iff` says for which arguments this goes well. -/

namespace HadoopExamples.SleepJobWithArray

/-! ## The client -/

/-- What `run` reads from its arguments, with the defaults. -/
structure Arguments where
  numMapper : JavaInt := 1
  numReducer : JavaInt := 1
  mapSleepTime : JavaLong := 100
  reduceSleepTime : JavaLong := 100
  recSleepTime : JavaLong := 100
deriving DecidableEq

inductive ArgumentException where
  | numberFormatException (s : JavaString)
  | arrayIndexOutOfBoundsException
deriving DecidableEq

/-- The arguments that are followed by a value. -/
def takesValue (arg : JavaString) : Bool :=
  ["-m".toList, "-r".toList, "-mt".toList, "-rt".toList, "-recordt".toList].contains arg

section Client

variable (digit : Char → Option ℕ)

def parse (bits : ℕ) (s : JavaString) : Except ArgumentException (BitVec bits) :=
  match s.parseNumber digit bits with
  | some n => .ok n
  | none => .error (.numberFormatException s)

def Arguments.set (a : Arguments) (arg value : JavaString) : Except ArgumentException Arguments := do
  if arg = "-m".toList then return { a with numMapper := ← parse digit 32 value }
  else if arg = "-r".toList then return { a with numReducer := ← parse digit 32 value }
  else if arg = "-mt".toList then return { a with mapSleepTime := ← parse digit 64 value }
  else if arg = "-rt".toList then return { a with reduceSleepTime := ← parse digit 64 value }
  else return { a with recSleepTime := ← parse digit 64 value }

/-- The loop over the arguments; any other argument is passed over. -/
def parseArgs (a : Arguments) : List JavaString → Except ArgumentException Arguments
  | [] => .ok a
  | [arg] => if takesValue arg then .error .arrayIndexOutOfBoundsException else .ok a
  | arg :: value :: rest =>
    if takesValue arg then
      match a.set digit arg value with
      | .ok a => parseArgs a rest
      | .error e => .error e
    else parseArgs a (value :: rest)

/-- An integer as an `int`, or the `int` closest to it. -/
def saturate (z : ℤ) : JavaInt := BitVec.ofInt 32 (max (-2 ^ 31) (min z (2 ^ 31 - 1)))

/-- `(int)Math.ceil(time / ((double)recSleepTime))`, on exact quotients: a division by zero is
    infinite, and zero divided by zero is no number and becomes 0. -/
def sleepCount (time recSleepTime : JavaLong) : JavaInt :=
  if recSleepTime = 0 then saturate (time.toInt.sign * 2 ^ 31)
  else saturate ⌈(time.toInt : ℚ) / recSleepTime.toInt⌉

/-- What the generic options of Hadoop put into the configuration before `run`. -/
structure Configuration where
  initBigArray : Bool := false
  bigArraySize : JavaInt := 512000000

/-- A job as the tasks see it. -/
structure SubmittedJob extends JobConf, Configuration where
  numMapTasks : JavaInt
  mapSleepTime : JavaLong
  reduceSleepTime : JavaLong

def setupJobConf (conf : Configuration) (numMapper numReducer : JavaInt) (mapSleepTime : JavaLong)
    (mapSleepCount : JavaInt) (reduceSleepTime : JavaLong) (reduceSleepCount : JavaInt) :
    SubmittedJob :=
  { conf with
    numMapTasks := numMapper
    numReduceTasks := numReducer
    mapSleepTime := mapSleepTime
    reduceSleepTime := reduceSleepTime
    mapSleepCount := mapSleepCount
    reduceSleepCount := reduceSleepCount }

/-- The job of some arguments. -/
def Arguments.job (conf : Configuration) (a : Arguments) : SubmittedJob :=
  setupJobConf conf a.numMapper a.numReducer a.mapSleepTime
    (sleepCount a.mapSleepTime a.recSleepTime) a.reduceSleepTime
    (sleepCount a.reduceSleepTime a.recSleepTime)

/-- `run(String[])`: the job that it submits, or `none` if it prints how it is used. -/
def run (conf : Configuration) (args : List JavaString) :
    Except ArgumentException (Option SubmittedJob) :=
  if args.length < 1 then .ok none
  else (parseArgs digit {} args).map fun a => some (a.job conf)

end Client

/-! ## The tasks -/

/-- The fields that `configure` sets. -/
structure TaskFields where
  mapSleepCount : JavaInt
  initBigArray : Bool
  bigArraySize : JavaInt
  reduceSleepCount : JavaInt
  mapSleepDuration : JavaLong
  reduceSleepDuration : JavaLong

/-- `x / y` for a `long` and an `int`. -/
def divide (x : JavaLong) (y : JavaInt) : Except JavaException JavaLong :=
  if y = 0 then .error (.arithmeticException "/ by zero".toList)
  else .ok (x.sdiv (y.signExtend 64))

def configure (job : SubmittedJob) : Except JavaException TaskFields := do
  let mapSleepDuration ← divide job.mapSleepTime job.mapSleepCount
  let reduceSleepDuration ← divide job.reduceSleepTime job.reduceSleepCount
  return ⟨job.mapSleepCount, job.initBigArray, job.bigArraySize, job.reduceSleepCount,
    mapSleepDuration, reduceSleepDuration⟩

/-- Map tasks and reduce tasks are configured in the same way, and map tasks read their splits. -/
structure Safe (job : SubmittedJob) : Prop where
  configure : 0 < job.numMapTasks.toInt ∨ 0 < job.numReduceTasks.toInt →
    ∀ message, configure job ≠ .error (.arithmeticException message)
  next : 0 < job.numMapTasks.toInt →
    ∀ message, readSplit job.toJobConf ≠ .error (.arithmeticException message)
  keys : (job.reduceSleepCount * job.numReduceTasks).toInt
    = job.reduceSleepCount.toInt * job.numReduceTasks.toInt

/-! ## The tasks' arithmetic -/

theorem configure_safe_iff (job : SubmittedJob) :
    (∀ message, configure job ≠ .error (.arithmeticException message)) ↔
      job.mapSleepCount ≠ 0 ∧ job.reduceSleepCount ≠ 0 := by
  unfold configure divide
  by_cases hmap : job.mapSleepCount = 0
  · simp only [if_pos hmap]
    exact ⟨fun h => absurd rfl (h _), fun h => absurd hmap h.1⟩
  · by_cases hreduce : job.reduceSleepCount = 0
    · simp only [if_neg hmap, if_pos hreduce]
      exact ⟨fun h => absurd rfl (h _), fun h => absurd hreduce h.2⟩
    · simp only [if_neg hmap, if_neg hreduce]
      exact ⟨fun _ => ⟨hmap, hreduce⟩, fun _ message h => nomatch h⟩

/-- A reader that does not divide by zero reads its split to the end. -/
theorem readAll_ok {reader : RecordReader} (h : reader.count ≠ 0) :
    ∃ records, reader.readAll = .ok records := by
  obtain ⟨n, hn⟩ : ∃ n, n = (reader.count.toInt - reader.records.toInt).toNat := ⟨_, rfl⟩
  induction n using Nat.strong_induction_on generalizing reader with
  | _ n ih =>
    obtain ⟨more, record, reader', hnext, hcount⟩ : ∃ more record reader',
        reader.next = .ok (more, record, reader') ∧ reader'.count = reader.count := by
      unfold RecordReader.next
      rw [if_neg h]
      exact ⟨_, _, _, rfl, rfl⟩
    cases more with
    | false => exact ⟨[], readAll_stop hnext⟩
    | true =>
      have hdecreasing := RecordReader.next_decreasing hnext
      obtain ⟨records, hrecords⟩ := ih _ (hn ▸ hdecreasing) (hcount.symm ▸ h) rfl
      exact ⟨record :: records, by rw [readAll_more hnext, hrecords]; rfl⟩

theorem readSplit_safe {conf : JobConf} (h : conf.mapSleepCount ≠ 0) (message : JavaString) :
    readSplit conf ≠ .error (.arithmeticException message) := by
  unfold readSplit getRecordReader
  simp only
  split
  · exact fun herror => nomatch herror
  · split
    · exact fun herror => nomatch herror
    · have hreader : (⟨conf.mapSleepCount, conf.reduceSleepCount * conf.numReduceTasks, 0, 0⟩ :
          RecordReader).count ≠ 0 := h
      obtain ⟨records, hrecords⟩ := readAll_ok hreader
      show RecordReader.readAll _ ≠ _
      rw [hrecords]
      exact fun herror => nomatch herror

/-- A product of natural numbers fits in an `int` or comes out wrong. -/
theorem toInt_mul_iff {x y : JavaInt} (hx : 0 ≤ x.toInt) (hy : 0 ≤ y.toInt) :
    (x * y).toInt = x.toInt * y.toInt ↔ x.toInt * y.toInt < 2 ^ 31 := by
  have hpos := Int.mul_nonneg hx hy
  refine ⟨fun h => ?_, fun h => ?_⟩
  · rw [← h]
    exact BitVec.toInt_lt
  · rw [BitVec.toInt_mul]
    exact Int.bmod_eq_of_le (by omega) (by omega)

theorem safe_iff {job : SubmittedJob} (hmaps : 0 ≤ job.numMapTasks.toInt)
    (hreduces : 0 ≤ job.numReduceTasks.toInt) (hcount : 0 ≤ job.reduceSleepCount.toInt) :
    Safe job ↔
      ((job.numMapTasks.toInt = 0 ∧ job.numReduceTasks.toInt = 0) ∨
        (job.mapSleepCount ≠ 0 ∧ job.reduceSleepCount ≠ 0)) ∧
      job.reduceSleepCount.toInt * job.numReduceTasks.toInt < 2 ^ 31 := by
  rw [← toInt_mul_iff hcount hreduces, ← configure_safe_iff]
  constructor
  · intro h
    refine ⟨?_, h.keys⟩
    by_cases hnone : job.numMapTasks.toInt = 0 ∧ job.numReduceTasks.toInt = 0
    · exact Or.inl hnone
    · exact Or.inr (h.configure (by omega))
  · intro h
    obtain ⟨htasks, hkeys⟩ := h
    refine ⟨?_, ?_, hkeys⟩
    · intro hsome
      exact htasks.resolve_left (by omega)
    · intro hmap message
      have hconfigure := htasks.resolve_left (by omega)
      exact readSplit_safe ((configure_safe_iff job).1 hconfigure).1 message

/-! ## The numbers of records -/

theorem toInt_saturate (z : ℤ) :
    (saturate z).toInt = max (-2 ^ 31) (min z (2 ^ 31 - 1)) := by
  unfold saturate
  rw [BitVec.toInt_ofInt]
  exact Int.bmod_eq_of_le (by omega) (by omega)

section Counts

variable {time recSleepTime : JavaLong}

theorem ceil_nonneg (htime : 0 ≤ time.toInt) (hrec : 0 < recSleepTime.toInt) :
    0 ≤ ⌈(time.toInt : ℚ) / recSleepTime.toInt⌉ := by
  refine Int.ceil_nonneg (div_nonneg ?_ ?_)
  · exact_mod_cast htime
  · exact_mod_cast hrec.le

theorem toInt_sleepCount (htime : 0 ≤ time.toInt) (hrec : 0 < recSleepTime.toInt) :
    (sleepCount time recSleepTime).toInt
      = min ⌈(time.toInt : ℚ) / recSleepTime.toInt⌉ (2 ^ 31 - 1) := by
  have hne : recSleepTime ≠ 0 := by
    intro hzero
    rw [hzero] at hrec
    exact absurd hrec (by decide)
  have hpos := ceil_nonneg htime hrec
  unfold sleepCount
  rw [if_neg hne, toInt_saturate]
  omega

/-- Only a time of zero makes no records. -/
theorem sleepCount_ne_zero_iff (htime : 0 ≤ time.toInt) (hrec : 0 < recSleepTime.toInt) :
    sleepCount time recSleepTime ≠ 0 ↔ 0 < time.toInt := by
  have hrecq : (0 : ℚ) < recSleepTime.toInt := by exact_mod_cast hrec
  have hceil : 0 < ⌈(time.toInt : ℚ) / recSleepTime.toInt⌉ ↔ 0 < time.toInt := by
    rw [Int.lt_ceil, lt_div_iff₀ hrecq, Int.cast_zero, zero_mul, Int.cast_pos]
  have hzero : sleepCount time recSleepTime = 0 ↔
      (sleepCount time recSleepTime).toInt = 0 := by
    rw [← BitVec.toInt_inj]
    rfl
  have hpos := ceil_nonneg htime hrec
  rw [Ne, hzero, toInt_sleepCount htime hrec, ← hceil]
  omega

/-- A product with a saturated factor. -/
theorem min_mul_lt_iff {c n : ℤ} (hn : 0 ≤ n) :
    min c (2 ^ 31 - 1) * n < 2 ^ 31 ↔ n ≤ 1 ∨ c * n < 2 ^ 31 := by
  rcases (by omega : n = 0 ∨ n = 1 ∨ 2 ≤ n) with rfl | rfl | hmany
  · simp
  · simp
  · rcases le_or_gt c (2 ^ 31 - 1) with hle | hgt
    · rw [min_eq_left hle]
      omega
    · have hsat := Int.mul_le_mul_of_nonneg_left hmany (by norm_num : (0 : ℤ) ≤ 2 ^ 31 - 1)
      have hprod := Int.mul_le_mul_of_nonneg_right hgt.le hn
      rw [min_eq_right hgt.le]
      omega

end Counts

/-! ## Which jobs are safe -/

theorem run_ok {digit : Char → Option ℕ} (conf : Configuration) {args : List JavaString}
    {a : Arguments} (hsubmits : args ≠ []) (hargs : parseArgs digit {} args = .ok a) :
    run digit conf args = .ok (some (a.job conf)) := by
  have hlength : ¬ args.length < 1 := by
    have := List.length_pos_iff.2 hsubmits
    omega
  unfold run
  rw [if_neg hlength, hargs]
  rfl

/-- For arguments that `run` reads as times and numbers of tasks that are not negative and as a
    positive record time, it submits a job; and the arithmetic of this job's tasks is safe exactly
    if there are no tasks or both times are positive, and the number of keys, with the quotient
    rounded up, is an `int` (which it is anyway for a single reducer). -/
theorem run_safe_iff (digit : Char → Option ℕ) (conf : Configuration) (args : List JavaString)
    (a : Arguments) (hsubmits : args ≠ []) (hargs : parseArgs digit {} args = .ok a)
    (hmapTime : 0 ≤ a.mapSleepTime.toInt) (hreduceTime : 0 ≤ a.reduceSleepTime.toInt)
    (hrecTime : 0 < a.recSleepTime.toInt) (hmaps : 0 ≤ a.numMapper.toInt)
    (hreduces : 0 ≤ a.numReducer.toInt) :
    ∃ job, run digit conf args = .ok (some job) ∧ (Safe job ↔
      ((a.numMapper.toInt = 0 ∧ a.numReducer.toInt = 0) ∨
        (0 < a.mapSleepTime.toInt ∧ 0 < a.reduceSleepTime.toInt)) ∧
      (a.numReducer.toInt ≤ 1 ∨
        ⌈(a.reduceSleepTime.toInt : ℚ) / a.recSleepTime.toInt⌉ * a.numReducer.toInt < 2 ^ 31)) := by
  have hceil := ceil_nonneg hreduceTime hrecTime
  have hcount := toInt_sleepCount hreduceTime hrecTime
  refine ⟨a.job conf, ?_, ?_⟩
  · exact run_ok conf hsubmits hargs
  · have hcounts : 0 ≤ (a.job conf).reduceSleepCount.toInt := by
      show 0 ≤ (sleepCount _ _).toInt
      omega
    have hsafe : Safe (a.job conf) ↔ _ := safe_iff hmaps hreduces hcounts
    rw [hsafe]
    show ((a.numMapper.toInt = 0 ∧ a.numReducer.toInt = 0) ∨
        sleepCount _ _ ≠ 0 ∧ sleepCount _ _ ≠ 0) ∧
      (sleepCount _ _).toInt * a.numReducer.toInt < _ ↔ _
    rw [sleepCount_ne_zero_iff hmapTime hrecTime, sleepCount_ne_zero_iff hreduceTime hrecTime,
      hcount, min_mul_lt_iff hreduces]

/-- The ASCII digits. -/
def asciiDigit (c : Char) : Option ℕ := if c.isDigit then some (c.toNat - '0'.toNat) else none

/-- Map tasks of a quarter of a second, in three records each. -/
theorem run_safe_iff_quarter : ∃ job,
    run asciiDigit {} ["-m".toList, "2".toList, "-mt".toList, "250".toList] = .ok (some job) ∧
      Safe job := by
  obtain ⟨job, hrun, hsafe⟩ := run_safe_iff asciiDigit {}
    ["-m".toList, "2".toList, "-mt".toList, "250".toList]
    { numMapper := 2, mapSleepTime := 250 } (by decide) (by decide) (by decide) (by decide)
    (by decide) (by decide) (by decide)
  refine ⟨job, hrun, hsafe.2 ⟨Or.inr (by decide), Or.inl (by decide)⟩⟩

/-- A job whose map tasks need no time has no records to divide by, and a reduce time of `2^31 - 1`
    in records of one millisecond makes more keys than an `int` counts. -/
theorem run_unsafe :
    (∃ job, run asciiDigit {} ["-mt".toList, "0".toList] = .ok (some job) ∧
      configure job = .error (.arithmeticException "/ by zero".toList) ∧ ¬ Safe job) ∧
    ∃ job, run asciiDigit {} ["-r".toList, "3".toList, "-rt".toList, "2147483647".toList,
        "-recordt".toList, "1".toList] = .ok (some job) ∧
      (job.reduceSleepCount * job.numReduceTasks).toInt = 2147483645 ∧ ¬ Safe job := by
  refine ⟨⟨_, run_ok {} (by decide) (a := { mapSleepTime := 0 }) (by decide), ?_⟩,
    ⟨_, run_ok {} (by decide)
      (a := { numReducer := 3, reduceSleepTime := 2147483647, recSleepTime := 1 }) (by decide), ?_⟩⟩
  · have hconfigure : configure (Arguments.job {} { mapSleepTime := 0 })
        = .error (.arithmeticException "/ by zero".toList) := by
      have hcount : sleepCount 0 100 = 0 := by decide +kernel
      show divide 0 (sleepCount 0 100) >>= _ = _
      rw [hcount]
      rfl
    exact ⟨hconfigure, fun hsafe => hsafe.configure (Or.inl (by decide)) _ hconfigure⟩
  · refine ⟨by decide +kernel, fun hsafe => ?_⟩
    have := hsafe.keys
    revert this
    decide +kernel

end HadoopExamples.SleepJobWithArray
