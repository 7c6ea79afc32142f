import HadoopExamples.Library.Decimal
import HadoopExamples.Library.MapReduce
import HadoopExamples.Platform.Java

set_option autoImplicit false

/-! # The keys of SleepJobWithArray

The extended sleep job reads no input: the record reader of a split counts up, and deals out the
keys of its map task in intervals, one for each record. Its counters are Java integers that also
advance on the call that ends the input. `sleepJob_even` says that the intervals cover the keys
`0 .. reduces * reducers - 1` and that every reducer gets the same number of them. -/

namespace HadoopExamples.SleepJobWithArray

/-! ## The code -/

/-- The properties that the reader and the partitioner use: `sleep.job.map.sleep.count`,
    `sleep.job.reduce.sleep.count` and the number of reduce tasks. -/
structure JobConf where
  mapSleepCount : JavaInt
  reduceSleepCount : JavaInt
  numReduceTasks : JavaInt

inductive JavaException where
  | ioException (message : JavaString)
  | arithmeticException (message : JavaString)

structure RecordReader where
  count : JavaInt
  emitPerMapTask : JavaInt
  records : JavaInt
  emitCount : JavaInt

def getRecordReader (conf : JobConf) : Except JavaException RecordReader :=
  let count := conf.mapSleepCount
  let redcount := conf.reduceSleepCount
  if count.slt 0 then
    .error (.ioException ("Invalid map count: ".toList ++ Decimal.ofInt count.toInt))
  else if redcount.slt 0 then
    .error (.ioException ("Invalid reduce count: ".toList ++ Decimal.ofInt redcount.toInt))
  else .ok ⟨count, redcount * conf.numReduceTasks, 0, 0⟩

/-- One call of `next`: what it returns, the key and value it sets, and the counters after it. -/
def RecordReader.next (reader : RecordReader) :
    Except JavaException (Bool × (IntWritable × IntWritable) × RecordReader) :=
  if reader.count = 0 then .error (.arithmeticException "/ by zero".toList)
  else
    let key := reader.emitCount
    let emit := reader.emitPerMapTask.sdiv reader.count
    let emit := if reader.records.slt (reader.emitPerMapTask.srem reader.count) then emit + 1
      else emit
    .ok (reader.records.slt reader.count, (⟨key⟩, ⟨emit⟩),
      { reader with records := reader.records + 1, emitCount := reader.emitCount + emit })

theorem RecordReader.next_decreasing {reader reader' : RecordReader}
    {record : IntWritable × IntWritable} (h : reader.next = .ok (true, record, reader')) :
    (reader'.count.toInt - reader'.records.toInt).toNat
      < (reader.count.toInt - reader.records.toInt).toNat := by
  unfold next at h
  split at h
  · cases h
  · simp only [Except.ok.injEq, Prod.mk.injEq] at h
    obtain ⟨hmore, _, rfl⟩ := h
    have hlt : reader.records.toInt < reader.count.toInt := BitVec.slt_iff_toInt_lt.1 hmore
    show (reader.count.toInt - (reader.records + 1).toInt).toNat < _
    rw [JavaInt.toInt_add_one hmore]
    omega

/-- The records that a map task reads: `next` is called until it returns false. -/
def RecordReader.readAll (reader : RecordReader) :
    Except JavaException (List (IntWritable × IntWritable)) :=
  match _ : reader.next with
  | .error e => .error e
  | .ok (false, _, _) => .ok []
  | .ok (true, record, reader') => (readAll reader').map (record :: ·)
termination_by (reader.count.toInt - reader.records.toInt).toNat
decreasing_by exact RecordReader.next_decreasing (by assumption)

/-- What a map task reads from its split, which holds nothing. -/
def readSplit (conf : JobConf) : Except JavaException (List (IntWritable × IntWritable)) := do
  let reader ← getRecordReader conf
  reader.readAll

def map (record : IntWritable × IntWritable) : List (IntWritable × NullWritable) :=
  (List.range record.2.value.toInt.toNat).map fun i =>
    (⟨record.1.value + BitVec.ofNat 32 i⟩, ())

def getPartition (k : IntWritable) (numPartitions : JavaInt) : JavaInt :=
  k.value.srem numPartitions

/-- The job; its reducers only sleep. -/
def job : MapReduce.Job (IntWritable × IntWritable) IntWritable NullWritable
    (NullWritable × NullWritable) where
  map := map
  reduce := fun _ _ => []

/-- The records that the map tasks write, each from the records that it reads. -/
def mapOutput (numMapTasks : ℕ) (records : List (IntWritable × IntWritable)) :
    List (IntWritable × NullWritable) :=
  job.mapPhase (List.replicate numMapTasks records)

/-- One run of the job: the records every map task reads, and what the shuffle makes of the keys
    that `getPartition` assigns to reducers. The `configure` of a task is left out. It only computes
    for how long a call sleeps, but divides by both counts; where the reduce count is zero it
    throws, so that the job then comes to no such run. -/
structure Execution (conf : JobConf) (numMapTasks : ℕ) where
  records : List (IntWritable × IntWritable)
  read : readSplit conf = .ok records
  partition : IntWritable → Fin conf.numReduceTasks.toInt.toNat
  assigned : ∀ kv ∈ mapOutput numMapTasks records,
    ((partition kv.1 : ℕ) : ℤ) = (getPartition kv.1 conf.numReduceTasks).toInt
  inputs : Fin conf.numReduceTasks.toInt.toNat → List (IntWritable × List NullWritable)
  shuffle : MapReduce.Shuffle partition (mapOutput numMapTasks records) inputs

/-! ## Dealing out the keys -/

section Deal

variable (count emitPerMapTask : ℕ)

/-- The number of keys of record `i`. -/
def share (i : ℕ) : ℕ :=
  emitPerMapTask / count + if i < emitPerMapTask % count then 1 else 0

/-- The number of keys of the records before record `i`. -/
def offset (i : ℕ) : ℕ := i * (emitPerMapTask / count) + min i (emitPerMapTask % count)

theorem offset_zero : offset count emitPerMapTask 0 = 0 := by
  unfold offset
  omega

theorem offset_succ (i : ℕ) :
    offset count emitPerMapTask (i + 1)
      = offset count emitPerMapTask i + share count emitPerMapTask i := by
  unfold offset share
  rw [Nat.succ_mul]
  split <;> omega

variable {count}

theorem offset_count (hcount : 0 < count) :
    offset count emitPerMapTask count = emitPerMapTask := by
  have hmod := Nat.mod_lt emitPerMapTask hcount
  unfold offset
  rw [Nat.min_eq_right (by omega), Nat.div_add_mod]

theorem offset_le (hcount : 0 < count) {i : ℕ} (hi : i ≤ count) :
    offset count emitPerMapTask i ≤ emitPerMapTask := by
  have hmono : Monotone (offset count emitPerMapTask) :=
    monotone_nat_of_le_succ fun j => by rw [offset_succ]; exact Nat.le_add_right _ _
  exact (hmono hi).trans_eq (offset_count emitPerMapTask hcount)

variable {emitPerMapTask}

/-- The intervals of the records cover the numbers from zero on. -/
theorem flatMap_intervals (n : ℕ) :
    ((List.range n).flatMap fun i =>
      (List.range (share count emitPerMapTask i)).map (offset count emitPerMapTask i + ·))
      = List.range (offset count emitPerMapTask n) := by
  induction n with
  | zero => rw [offset_zero]; rfl
  | succ n ih =>
    rw [List.range_succ, List.flatMap_append, ih, offset_succ, List.range_add]
    simp

end Deal

/-- As many numbers below `reduces * reducers` leave the rest `p` as any other. -/
theorem length_filter_mod (reduces : ℕ) {reducers p : ℕ} (hp : p < reducers) :
    ((List.range (reduces * reducers)).filter fun k => k % reducers = p).length = reduces := by
  induction reduces with
  | zero => simp
  | succ reduces ih =>
    -- the last round of `reducers` numbers has every rest once
    have hround : (((List.range reducers).map (reduces * reducers + ·)).filter
        fun k => k % reducers = p).length = 1 := by
      rw [← List.countP_eq_length_filter, List.countP_map,
        ← List.count_eq_one_of_mem List.nodup_range (List.mem_range.2 hp), List.count]
      refine List.countP_congr fun k hk => ?_
      have hmod : (reduces * reducers + k) % reducers = k := by
        rw [Nat.mul_comm, Nat.mul_add_mod, Nat.mod_eq_of_lt (List.mem_range.1 hk)]
      simp [hmod]
    rw [Nat.succ_mul, List.range_add, List.filter_append, List.length_append, ih, hround]

/-! ## The reader -/

section Reader

theorem readAll_stop {reader reader' : RecordReader} {record : IntWritable × IntWritable}
    (h : reader.next = .ok (false, record, reader')) : reader.readAll = .ok [] := by
  unfold RecordReader.readAll
  split
  · rename_i heq
    rw [h] at heq
    cases heq
  · rfl
  · rename_i heq
    rw [h] at heq
    cases heq

theorem readAll_more {reader reader' : RecordReader} {record : IntWritable × IntWritable}
    (h : reader.next = .ok (true, record, reader')) :
    reader.readAll = reader'.readAll.map (record :: ·) := by
  rw [RecordReader.readAll.eq_def]
  split
  · rename_i heq
    rw [h] at heq
    cases heq
  · rename_i heq
    rw [h] at heq
    cases heq
  · rename_i heq
    rw [h] at heq
    cases heq
    rfl

variable {count emitPerMapTask : ℕ}

/-- The reader after `i` calls of `next`. -/
def readerAt (count emitPerMapTask i : ℕ) : RecordReader :=
  ⟨BitVec.ofNat 32 count, BitVec.ofNat 32 emitPerMapTask, BitVec.ofNat 32 i,
    BitVec.ofNat 32 (offset count emitPerMapTask i)⟩

/-- The key and value that call `i` sets. -/
def recordAt (count emitPerMapTask i : ℕ) : IntWritable × IntWritable :=
  (⟨BitVec.ofNat 32 (offset count emitPerMapTask i)⟩,
    ⟨BitVec.ofNat 32 (share count emitPerMapTask i)⟩)

theorem next_readerAt (hcount : 0 < count) (hcountlt : count < 2 ^ 31)
    (hemit : emitPerMapTask < 2 ^ 31) {i : ℕ} (hi : i ≤ count) :
    (readerAt count emitPerMapTask i).next
      = .ok (decide (i < count), recordAt count emitPerMapTask i,
          readerAt count emitPerMapTask (i + 1)) := by
  have hne : BitVec.ofNat 32 count ≠ 0 := by
    intro h
    exact Nat.pos_iff_ne_zero.1 hcount ((JavaInt.ofNat_inj hcountlt (by omega)).1 h)
  have hrem := Nat.mod_lt emitPerMapTask hcount
  have hshare : (if (BitVec.ofNat 32 i).slt (BitVec.ofNat 32 (emitPerMapTask % count)) = true
        then BitVec.ofNat 32 (emitPerMapTask / count) + 1
        else BitVec.ofNat 32 (emitPerMapTask / count))
      = BitVec.ofNat 32 (share count emitPerMapTask i) := by
    rw [JavaInt.slt_ofNat (by omega) (by omega)]
    unfold share
    by_cases hlt : i < emitPerMapTask % count
    · simp [hlt, BitVec.ofNat_add]
    · simp [hlt]
  unfold RecordReader.next readerAt
  rw [if_neg hne]
  simp only [JavaInt.sdiv_ofNat hemit hcountlt, JavaInt.srem_ofNat hemit hcountlt, hshare,
    JavaInt.slt_ofNat (lt_of_le_of_lt hi hcountlt) hcountlt, offset_succ, BitVec.ofNat_add]
  rfl

/-- From call `i` on, the reader gives the remaining records and stops. -/
theorem readAll_readerAt (hcount : 0 < count) (hcountlt : count < 2 ^ 31)
    (hemit : emitPerMapTask < 2 ^ 31) {i left : ℕ} (hi : i + left = count) :
    (readerAt count emitPerMapTask i).readAll
      = .ok ((List.range' i left).map (recordAt count emitPerMapTask)) := by
  induction left generalizing i with
  | zero =>
    have hnext := next_readerAt hcount hcountlt hemit hi.le
    rw [decide_eq_false (by omega)] at hnext
    exact readAll_stop hnext
  | succ left ih =>
    have hnext := next_readerAt hcount hcountlt hemit (i := i) (by omega)
    rw [decide_eq_true (by omega)] at hnext
    rw [readAll_more hnext, ih (by omega), List.range'_succ]
    rfl

end Reader

/-! ## The whole job -/

/-- The record for the key `k`. -/
def keyRecord (k : ℕ) : IntWritable × NullWritable := (⟨BitVec.ofNat 32 k⟩, ())

/-- The properties as natural numbers, in the range where the number of keys is an `int` too. -/
structure Sizes (conf : JobConf) (count reduces reducers : ℕ) : Prop where
  mapSleepCount : conf.mapSleepCount = BitVec.ofNat 32 count
  reduceSleepCount : conf.reduceSleepCount = BitVec.ofNat 32 reduces
  numReduceTasks : conf.numReduceTasks = BitVec.ofNat 32 reducers
  count_pos : 0 < count
  count_lt : count < 2 ^ 31
  reduces_lt : reduces < 2 ^ 31
  reducers_pos : 0 < reducers
  reducers_lt : reducers < 2 ^ 31
  keys_lt : reduces * reducers < 2 ^ 31

theorem sizes_toNat {conf : JobConf} (hcount : 0 < conf.mapSleepCount.toInt)
    (hreduces : 0 ≤ conf.reduceSleepCount.toInt) (hreducers : 0 < conf.numReduceTasks.toInt)
    (hlt : conf.reduceSleepCount.toInt * conf.numReduceTasks.toInt < 2 ^ 31) :
    Sizes conf conf.mapSleepCount.toInt.toNat conf.reduceSleepCount.toInt.toNat
      conf.numReduceTasks.toInt.toNat where
  mapSleepCount := JavaInt.eq_ofNat hcount.le
  reduceSleepCount := JavaInt.eq_ofNat hreduces
  numReduceTasks := JavaInt.eq_ofNat hreducers.le
  count_pos := by omega
  count_lt := by have : conf.mapSleepCount.toInt < 2 ^ 31 := BitVec.toInt_lt; omega
  reduces_lt := by have : conf.reduceSleepCount.toInt < 2 ^ 31 := BitVec.toInt_lt; omega
  reducers_pos := by omega
  reducers_lt := by have : conf.numReduceTasks.toInt < 2 ^ 31 := BitVec.toInt_lt; omega
  keys_lt := by rw [← Int.toNat_mul hreduces hreducers.le]; omega

namespace Sizes

variable {conf : JobConf} {count reduces reducers : ℕ}

theorem toNat_numReduceTasks (h : Sizes conf count reduces reducers) :
    conf.numReduceTasks.toInt.toNat = reducers := by
  rw [h.numReduceTasks, JavaInt.toInt_ofNat h.reducers_lt, Int.toNat_natCast]

/-- Every split is read to its end and gives `count` records. -/
theorem readSplit_eq (h : Sizes conf count reduces reducers) :
    readSplit conf = .ok ((List.range count).map (recordAt count (reduces * reducers))) := by
  have hreader : getRecordReader conf = .ok (readerAt count (reduces * reducers) 0) := by
    unfold getRecordReader readerAt
    have hzero : (0 : JavaInt) = BitVec.ofNat 32 0 := rfl
    simp only [h.mapSleepCount, h.reduceSleepCount, h.numReduceTasks, hzero,
      JavaInt.slt_ofNat h.count_lt (by omega : 0 < 2 ^ 31),
      JavaInt.slt_ofNat h.reduces_lt (by omega : 0 < 2 ^ 31), offset_zero, BitVec.ofNat_mul]
    rfl
  unfold readSplit
  rw [hreader]
  show (readerAt count (reduces * reducers) 0).readAll = _
  rw [readAll_readerAt h.count_pos h.count_lt h.keys_lt (Nat.zero_add count),
    ← List.range_eq_range']

/-- The number of the reducer of a key. -/
theorem getPartition_keyRecord (h : Sizes conf count reduces reducers) {k : ℕ}
    (hk : k < reduces * reducers) :
    (getPartition (keyRecord k).1 conf.numReduceTasks).toInt = (k % reducers : ℕ) := by
  have hmod := Nat.mod_lt k h.reducers_pos
  have hlt := h.reducers_lt
  rw [h.numReduceTasks]
  unfold getPartition keyRecord
  rw [JavaInt.srem_ofNat (hk.trans h.keys_lt) hlt, JavaInt.toInt_ofNat (by omega)]

theorem keyRecord_injOn (h : Sizes conf count reduces reducers) {k k' : ℕ}
    (hk : k < reduces * reducers) (hk' : k' < reduces * reducers)
    (heq : (keyRecord k).1 = (keyRecord k').1) : k = k' :=
  (JavaInt.ofNat_inj (hk.trans h.keys_lt) (hk'.trans h.keys_lt)).1 (IntWritable.mk.inj heq)

/-- The records for one reducer. -/
theorem filter_keyRecord (h : Sizes conf count reduces reducers) (p : ℕ) :
    ((List.range (reduces * reducers)).map keyRecord).filter
        (fun kv => (getPartition kv.1 conf.numReduceTasks).toInt = p)
      = ((List.range (reduces * reducers)).filter fun k => k % reducers = p).map keyRecord := by
  rw [List.filter_map]
  refine congrArg (List.map keyRecord) (List.filter_congr fun k hk => ?_)
  simp only [Function.comp_apply, h.getPartition_keyRecord (List.mem_range.1 hk)]
  exact decide_eq_decide.2 Int.ofNat_inj

end Sizes

section Records

variable {count emitPerMapTask : ℕ}

/-- A map task writes every key once, in increasing order. -/
theorem flatMap_map_recordAt (hcount : 0 < count) (hemit : emitPerMapTask < 2 ^ 31) :
    ((List.range count).map (recordAt count emitPerMapTask)).flatMap map
      = (List.range emitPerMapTask).map keyRecord := by
  have hinterval : ∀ i ∈ List.range count, map (recordAt count emitPerMapTask i)
      = ((List.range (share count emitPerMapTask i)).map
          (offset count emitPerMapTask i + ·)).map keyRecord := by
    intro i hi
    have hle := offset_le emitPerMapTask hcount (List.mem_range.1 hi : i + 1 ≤ count)
    rw [offset_succ] at hle
    unfold map recordAt keyRecord
    simp only [JavaInt.toInt_ofNat (n := share count emitPerMapTask i) (by omega),
      Int.toNat_natCast, List.map_map, Function.comp_def, BitVec.ofNat_add]
  rw [List.flatMap_map, List.flatMap_congr hinterval, ← List.map_flatMap, flatMap_intervals,
    offset_count emitPerMapTask hcount]

theorem toInt_share (hcount : 0 < count) (hemit : emitPerMapTask < 2 ^ 31) {i : ℕ}
    (hi : i < count) :
    (recordAt count emitPerMapTask i).2.value.toInt = share count emitPerMapTask i := by
  have hle := offset_le emitPerMapTask hcount (Nat.succ_le_of_lt hi)
  rw [offset_succ] at hle
  exact JavaInt.toInt_ofNat (by omega)

/-- The keys of a record start where those of the records before it end. -/
theorem sum_take_recordAt (hcount : 0 < count) (hemit : emitPerMapTask < 2 ^ 31) {i : ℕ}
    (hi : i ≤ count) :
    ((((List.range count).map (recordAt count emitPerMapTask)).take i).map
      fun record => record.2.value.toInt).sum = offset count emitPerMapTask i := by
  rw [← List.map_take, List.take_range, Nat.min_eq_left hi, List.map_map]
  induction i with
  | zero => rw [offset_zero]; rfl
  | succ i ih =>
    rw [List.range_succ, List.map_append, List.sum_append, ih (by omega), offset_succ]
    simp [toInt_share hcount hemit hi]

end Records

section Runs

variable {conf : JobConf} {count reduces reducers numMapTasks : ℕ}

/-- Every map task writes the same records. -/
theorem mapOutput_eq (numMapTasks : ℕ) (records : List (IntWritable × IntWritable)) :
    mapOutput numMapTasks records
      = (List.replicate numMapTasks (records.flatMap map)).flatten := by
  unfold mapOutput MapReduce.Job.mapPhase
  rw [List.flatMap_replicate]
  rfl

/-- What the map tasks write for one reducer. -/
theorem Execution.filter_mapOutput (e : Execution conf numMapTasks)
    (p : Fin conf.numReduceTasks.toInt.toNat) :
    (mapOutput numMapTasks e.records).filter (fun kv => e.partition kv.1 = p)
      = (List.replicate numMapTasks ((e.records.flatMap map).filter
          fun kv => (getPartition kv.1 conf.numReduceTasks).toInt = (p : ℕ))).flatten := by
  have hassigned : (mapOutput numMapTasks e.records).filter (fun kv => e.partition kv.1 = p)
      = (mapOutput numMapTasks e.records).filter
          fun kv => (getPartition kv.1 conf.numReduceTasks).toInt = (p : ℕ) := by
    refine List.filter_congr fun kv hkv => ?_
    rw [← e.assigned kv hkv]
    exact decide_eq_decide.2 (Fin.ext_iff.trans Int.ofNat_inj.symm)
  rw [hassigned, mapOutput_eq, List.filter_flatten, List.map_replicate]

/-- A reducer is called once for each of its keys, with one value from every map task. -/
theorem Execution.inputs_even (e : Execution conf numMapTasks) (hpos : 0 < numMapTasks)
    (h : Sizes conf count reduces reducers)
    (hkeys : e.records.flatMap map = (List.range (reduces * reducers)).map keyRecord)
    (p : Fin conf.numReduceTasks.toInt.toNat) :
    (e.inputs p).length = reduces ∧ ∀ g ∈ e.inputs p, g.2.length = numMapTasks := by
  have hp : (p : ℕ) < reducers := h.toNat_numReduceTasks ▸ p.isLt
  have hinput := (e.shuffle p).grouping
  rw [e.filter_mapOutput p, hkeys, h.filter_keyRecord] at hinput
  have hnodup : ((((List.range (reduces * reducers)).filter fun k => k % reducers = p).map
      keyRecord).map Prod.fst).Nodup := by
    rw [List.map_map]
    refine List.Nodup.map_on ?_ (List.nodup_range.filter _)
    intro k hk k' hk' heq
    exact h.keyRecord_injOn (List.mem_range.1 (List.mem_filter.1 hk).1)
      (List.mem_range.1 (List.mem_filter.1 hk').1) heq
  obtain ⟨hlength, hvalues⟩ := hinput.of_copies hpos hnodup
  rw [List.length_map, length_filter_mod reduces hp] at hlength
  exact ⟨hlength, hvalues⟩

theorem execution_exists {records : List (IntWritable × IntWritable)} (numMapTasks : ℕ)
    (hread : readSplit conf = .ok records) (h : Sizes conf count reduces reducers)
    (hkeys : records.flatMap map = (List.range (reduces * reducers)).map keyRecord) :
    Nonempty (Execution conf numMapTasks) := by
  let partition : IntWritable → Fin conf.numReduceTasks.toInt.toNat := fun k =>
    ⟨k.value.toInt.toNat % reducers, by
      rw [h.toNat_numReduceTasks]
      exact Nat.mod_lt _ h.reducers_pos⟩
  refine ⟨records, hread, partition, ?_, _, MapReduce.shuffle_sortGroups partition _⟩
  intro kv hkv
  rw [mapOutput_eq, hkeys] at hkv
  obtain ⟨task, htask, hkv⟩ := List.mem_flatten.1 hkv
  rw [List.eq_of_mem_replicate htask] at hkv
  obtain ⟨k, hk, rfl⟩ := List.mem_map.1 hkv
  have hklt := List.mem_range.1 hk
  rw [h.getPartition_keyRecord hklt]
  show (((keyRecord k).1.value.toInt.toNat % reducers : ℕ) : ℤ) = _
  unfold keyRecord
  rw [JavaInt.toInt_ofNat (hklt.trans h.keys_lt), Int.toNat_natCast]

end Runs

/-- For every number of records, reduces and reducers that an `int` can hold the product of: the
    reader gives as many records as asked for and stops; their keys and values are consecutive
    intervals from zero, from which `map` writes each key once and in increasing order;
    `getPartition` sends `reduces` of the keys to every reducer; and in a run with any number of
    map tasks every reducer is called for just as many keys, with one value from each task. -/
theorem sleepJob_even (conf : JobConf) (hcount : 0 < conf.mapSleepCount.toInt)
    (hreduces : 0 ≤ conf.reduceSleepCount.toInt) (hreducers : 0 < conf.numReduceTasks.toInt)
    (hlt : conf.reduceSleepCount.toInt * conf.numReduceTasks.toInt < 2 ^ 31) :
    ∃ records, readSplit conf = .ok records ∧
      records.length = conf.mapSleepCount.toInt.toNat ∧
      (∀ i (h : i < records.length), 0 ≤ records[i].2.value.toInt ∧ records[i].1.value.toInt
        = ((records.take i).map fun record => record.2.value.toInt).sum) ∧
      (records.flatMap map).map (fun kv => kv.1.value.toInt)
        = (List.range (conf.reduceSleepCount.toInt * conf.numReduceTasks.toInt).toNat).map
            Int.ofNat ∧
      (∀ p < conf.numReduceTasks.toInt.toNat,
        ((records.flatMap map).filter fun kv =>
          (getPartition kv.1 conf.numReduceTasks).toInt = p).length
          = conf.reduceSleepCount.toInt.toNat) ∧
      ∀ numMapTasks, 0 < numMapTasks → Nonempty (Execution conf numMapTasks) ∧
        ∀ (e : Execution conf numMapTasks) (p : Fin conf.numReduceTasks.toInt.toNat),
          (e.inputs p).length = conf.reduceSleepCount.toInt.toNat ∧
          ∀ g ∈ e.inputs p, g.2.length = numMapTasks := by
  have hsizes := sizes_toNat hcount hreduces hreducers hlt
  rw [Int.toNat_mul hreduces hreducers.le]
  have hread := hsizes.readSplit_eq
  have hkeys := flatMap_map_recordAt hsizes.count_pos hsizes.keys_lt
  refine ⟨_, hread, by simp, ?_, ?_, ?_, ?_⟩
  · intro i h
    have hi : i < conf.mapSleepCount.toInt.toNat := by simpa using h
    rw [sum_take_recordAt hsizes.count_pos hsizes.keys_lt hi.le]
    simp only [List.getElem_map, List.getElem_range]
    rw [toInt_share hsizes.count_pos hsizes.keys_lt hi]
    have hoffset := offset_le (conf.reduceSleepCount.toInt.toNat * conf.numReduceTasks.toInt.toNat)
      hsizes.count_pos hi.le
    exact ⟨Int.natCast_nonneg _, JavaInt.toInt_ofNat (lt_of_le_of_lt hoffset hsizes.keys_lt)⟩
  · rw [hkeys, List.map_map]
    refine List.map_congr_left fun k hk => ?_
    exact JavaInt.toInt_ofNat ((List.mem_range.1 hk).trans hsizes.keys_lt)
  · intro p hp
    rw [hkeys, hsizes.filter_keyRecord, List.length_map, length_filter_mod _ hp]
  · intro numMapTasks hpos
    refine ⟨execution_exists numMapTasks hread hsizes hkeys, ?_⟩
    intro e p
    have hrecords := Except.ok.inj (e.read.symm.trans hread)
    exact e.inputs_even hpos hsizes (hrecords ▸ hkeys) p

/-- Two records, three reduces for each of two reducers, four map tasks. -/
theorem sleepJob_even_small :
    ∃ records, readSplit ⟨2, 3, 2⟩ = .ok records ∧ records.length = 2 ∧
      Nonempty (Execution ⟨2, 3, 2⟩ 4) ∧ ∀ (e : Execution ⟨2, 3, 2⟩ 4) (p : Fin 2),
        (e.inputs p).length = 3 ∧ ∀ g ∈ e.inputs p, g.2.length = 4 := by
  obtain ⟨records, hread, hlength, _, _, _, hruns⟩ :=
    sleepJob_even ⟨2, 3, 2⟩ (by decide) (by decide) (by decide) (by decide)
  exact ⟨records, hread, hlength, hruns 4 (by decide)⟩

end HadoopExamples.SleepJobWithArray
