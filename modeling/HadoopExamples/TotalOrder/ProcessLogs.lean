import HadoopExamples.Library.MapReduce
import HadoopExamples.TotalOrder.LogMonthMapper
import Mathlib.Algebra.BigOperators.Group.List.Basic

set_option autoImplicit false

/-! # The two jobs of ProcessLogs

The sampling job runs `LogMonthMapper` without reducers and stages its records; the ordering job
passes them through `IdentityMapper`, assigns keys to ten reducers with `TotalOrderPartitioner` and
counts the values of every key. `ProcessLogs.Execution` is one way to run both: how lines and
staged records were divided among tasks, what the static array held when a task started, and where
the keys went. `processLogs_counts` says that none of this shows in the output. -/

namespace HadoopExamples

open MapperFunction

/-! ## The code -/

def IdentityMapper.map (record : Text × Text) : List (Text × Text) := [(record.1, record.2)]

def CountReducer.reduce (key : Text) (values : List Text) : List (Text × JavaInt) :=
  [(key, values.foldl (fun count _ => count + 1) 0)]

namespace ProcessLogs

/-- The output of the sampling job, one sequence file for each map task. A task starts with what
    earlier tasks of its JVM left in the static array. -/
def sampleJob (tasks : List (KVPair × List Text)) : List (Text × Text) :=
  tasks.flatMap fun task => LogMonthMapper.run task.1 task.2

def orderJob : MapReduce.Job (Text × Text) Text Text (Text × JavaInt) where
  map := IdentityMapper.map
  reduce := CountReducer.reduce

abbrev numReduceTasks : ℕ := 10

/-- One run of both jobs on `lines`. -/
structure Execution (lines : List Text) where
  samplingTasks : List (KVPair × List Text)
  division : (samplingTasks.flatMap Prod.snd).Perm lines
  ordering : MapReduce.Execution orderJob (sampleJob samplingTasks) numReduceTasks
  order_preserving : Monotone ordering.partition

/-- The concatenation of the reducers' outputs, in partition order. -/
def Execution.output {lines : List Text} (e : Execution lines) : List (Text × JavaInt) :=
  e.ordering.output

/-- A run with one sampling task and one ordering task, for any order-preserving assignment. -/
def Execution.single (lines : List Text) (partition : Text → Fin numReduceTasks)
    (h : Monotone partition) : Execution lines where
  samplingTasks := [(⟨none, none⟩, lines)]
  division := by simp
  ordering := MapReduce.Execution.sorted orderJob _ partition
  order_preserving := h

/-- All records in the first reducer. -/
def Execution.first (lines : List Text) : Execution lines :=
  Execution.single lines (fun _ => 0) fun _ _ _ => le_rfl

/-- The months and first fields of the lines that have them. -/
def accepted (lines : List Text) : List (JavaString × JavaString) :=
  lines.filterMap fun line => parse line.chars

end ProcessLogs

/-! ## Keys and counts -/

theorem CountReducer.reduce_eq (key : Text) (values : List Text) :
    CountReducer.reduce key values = [(key, BitVec.ofNat 32 values.length)] := by
  have hfold : ∀ (vs : List Text) (count : JavaInt),
      vs.foldl (fun count _ => count + 1) count = count + BitVec.ofNat 32 vs.length := by
    intro vs
    induction vs with
    | nil => intro count; simp
    | cons v vs ih =>
      intro count
      rw [List.foldl_cons, ih, List.length_cons, BitVec.ofNat_add, BitVec.add_assoc]
      exact congrArg (count + ·) (BitVec.add_comm _ _)
  rw [CountReducer.reduce, hfold, zero_add]

/-- Month names have one length, so the key of a pair determines the pair. -/
theorem LogMonthMapper.key_injective {month month' ip ip' : JavaString} (hm : month ∈ months)
    (hm' : month' ∈ months) (h : key month ip = key month' ip') : month = month' ∧ ip = ip' := by
  have hlen : month.length = month'.length := by
    rw [(months_clean hm).1, (months_clean hm').1]
  obtain ⟨hmonth, hrest⟩ := List.append_inj (Text.mk.inj h) hlen
  exact ⟨hmonth, (List.cons.inj hrest).2⟩

namespace ProcessLogs

variable {lines : List Text}

theorem mem_accepted {month ip : JavaString} :
    (month, ip) ∈ accepted lines ↔ ∃ line ∈ lines, Accepted month ip line.chars := by
  simp only [accepted, List.mem_filterMap, parse_eq_some_iff]

theorem count_accepted (month ip : JavaString) :
    (accepted lines).count (month, ip) = lines.countP fun line => Accepted month ip line.chars := by
  induction lines with
  | nil => rfl
  | cons line lines ih =>
    have hstep := @parse_eq_some_iff line.chars month ip
    rw [accepted, List.filterMap_cons, List.countP_cons, ← ih]
    cases hp : parse line.chars with
    | none => simp [← hstep, hp, accepted]
    | some mi =>
      rw [hp, Option.some.injEq] at hstep
      simp [← hstep, List.count_cons, accepted]

/-- The staged records are those of the accepted lines, however the lines were divided. -/
theorem sampleJob_perm {tasks : List (KVPair × List Text)}
    (h : (tasks.flatMap Prod.snd).Perm lines) :
    (sampleJob tasks).Perm
      ((accepted lines).map fun mi => (LogMonthMapper.key mi.1 mi.2, ⟨mi.1⟩)) := by
  have hjob : sampleJob tasks = (accepted (tasks.flatMap Prod.snd)).map
      fun mi => (LogMonthMapper.key mi.1 mi.2, ⟨mi.1⟩) := by
    simp only [sampleJob, run_eq, accepted, List.filterMap_flatMap, List.map_flatMap]
  rw [hjob]
  exact (h.filterMap _).map _

/-- The reduce calls of the ordering job group the records of the accepted lines. -/
theorem Execution.grouping (e : Execution lines) :
    MapReduce.Grouping
      ((accepted lines).map fun mi => (LogMonthMapper.key mi.1 mi.2, (⟨mi.1⟩ : Text)))
      e.ordering.groups := by
  refine e.ordering.grouping_input.of_perm ?_
  have hid : (sampleJob e.samplingTasks).flatMap orderJob.map = sampleJob e.samplingTasks :=
    List.flatMap_singleton' _
  rw [hid]
  exact sampleJob_perm e.division

theorem Execution.mem_keys (e : Execution lines) (k : Text) :
    k ∈ e.ordering.groups.map Prod.fst ↔
      ∃ mi ∈ accepted lines, LogMonthMapper.key mi.1 mi.2 = k := by
  rw [e.grouping.mem_keys]
  simp

/-- The key of a month and a first field is called with if and only if they are accepted. -/
theorem Execution.key_mem_keys (e : Execution lines) {month : JavaString} (hm : month ∈ months)
    (ip : JavaString) :
    LogMonthMapper.key month ip ∈ e.ordering.groups.map Prod.fst ↔
      (month, ip) ∈ accepted lines := by
  rw [e.mem_keys]
  refine ⟨fun hkey => ?_, fun hmem => ⟨_, hmem, rfl⟩⟩
  obtain ⟨⟨m, a⟩, hmem, hkey⟩ := hkey
  obtain ⟨line, _, hacc⟩ := mem_accepted.1 hmem
  obtain ⟨rfl, rfl⟩ := LogMonthMapper.key_injective hacc.1 hm hkey
  exact hmem

theorem Execution.output_eq (e : Execution lines) :
    e.output = e.ordering.groups.map fun g => (g.1, BitVec.ofNat 32 g.2.length) := by
  have hreduce : ∀ g : Text × List Text, orderJob.reduce g.1 g.2
      = [(g.1, BitVec.ofNat 32 g.2.length)] := fun g => CountReducer.reduce_eq g.1 g.2
  simp only [Execution.output, MapReduce.Execution.output, hreduce]
  exact List.map_eq_flatMap.symm

/-- The values of a key are as many as the lines accepted with its month and first field. -/
theorem Execution.length_values (e : Execution lines) {g : Text × List Text}
    (hg : g ∈ e.ordering.groups) {month ip : JavaString} (hm : month ∈ months)
    (hkey : g.1 = LogMonthMapper.key month ip) :
    g.2.length = lines.countP fun line => Accepted month ip line.chars := by
  have hmonths : ∀ mi ∈ accepted lines, mi.1 ∈ months := fun mi hmi => by
    obtain ⟨line, _, hacc⟩ := mem_accepted.1 hmi
    exact hacc.1
  rw [(e.grouping.values_perm hg).length_eq, ← count_accepted, hkey, MapReduce.valuesOf,
    List.length_map, ← List.countP_eq_length_filter, List.countP_map, List.count]
  refine List.countP_congr fun mi hmi => ?_
  simp only [Function.comp_apply, decide_eq_true_eq, beq_iff_eq]
  constructor
  · intro h
    obtain ⟨h₁, h₂⟩ := LogMonthMapper.key_injective (hmonths mi hmi) hm h
    exact Prod.ext h₁ h₂
  · rintro rfl
    rfl

/-- A record of the output is a month and a first field of accepted lines, with their number. -/
theorem Execution.mem_output {e : Execution lines} {r : Text × JavaInt} (hr : r ∈ e.output) :
    ∃ month ip, (month, ip) ∈ accepted lines ∧ r = (LogMonthMapper.key month ip,
      BitVec.ofNat 32 (lines.countP fun line => Accepted month ip line.chars)) := by
  rw [e.output_eq] at hr
  obtain ⟨g, hg, rfl⟩ := List.mem_map.1 hr
  obtain ⟨⟨m, a⟩, hmem, hkey⟩ := (e.mem_keys g.1).1 (List.mem_map_of_mem hg)
  obtain ⟨line, _, hacc⟩ := mem_accepted.1 hmem
  exact ⟨m, a, hmem, by rw [← hkey, e.length_values hg hacc.1 hkey.symm]⟩

theorem Execution.length_groups (e : Execution lines) :
    (e.ordering.groups.map fun g => g.2.length).sum = (accepted lines).length := by
  have hlen := e.grouping.delivered.length_eq
  simpa [MapReduce.ungroup, List.length_flatMap] using hlen

/-- A line that counts, with whatever month and first field. -/
def AcceptedLine (line : JavaString) : Prop := ∃ month ip, Accepted month ip line

theorem isSome_parse_iff {line : JavaString} :
    (parse line).isSome = true ↔ AcceptedLine line := by
  simp [Option.isSome_iff_exists, parse_eq_some_iff, AcceptedLine]

instance (line : JavaString) : Decidable (AcceptedLine line) :=
  decidable_of_iff _ isSome_parse_iff

theorem length_accepted :
    (accepted lines).length = lines.countP fun line => AcceptedLine line.chars := by
  rw [accepted, List.length_filterMap_eq_countP]
  exact List.countP_congr fun line _ => by simp [isSome_parse_iff]

theorem sum_map_ofNat {α : Type} (f : α → ℕ) (l : List α) :
    (l.map fun a => BitVec.ofNat 32 (f a)).sum = BitVec.ofNat 32 (l.map f).sum := by
  induction l with
  | nil => rfl
  | cons a l ih => rw [List.map_cons, List.sum_cons, ih, List.map_cons, List.sum_cons,
      BitVec.ofNat_add]

/-! ## End to end -/

/-- **Both jobs of ProcessLogs, end to end.** Whatever the division into tasks, the leftovers in
    the static array and the order-preserving assignment of keys, the output is strictly increasing
    in the key, its records are the months and first fields of the accepted lines, each with the
    number of its lines, and the counts add up to the number of accepted lines. -/
theorem processLogs_counts (e : Execution lines) :
    e.output.Pairwise (fun r r' => r.1 < r'.1) ∧
    (∀ month ∈ months, ∀ ip, (∃ n, (LogMonthMapper.key month ip, n) ∈ e.output) ↔
      ∃ line ∈ lines, Accepted month ip line.chars) ∧
    (∀ r ∈ e.output, ∃ month ∈ months, ∃ ip, r = (LogMonthMapper.key month ip,
      BitVec.ofNat 32 (lines.countP fun line => Accepted month ip line.chars))) ∧
    (∀ month ∈ months, ∀ month' ∈ months, ∀ ip ip',
      LogMonthMapper.key month ip = LogMonthMapper.key month' ip' → month = month' ∧ ip = ip') ∧
    (e.output.map Prod.snd).sum
      = BitVec.ofNat 32 (lines.countP fun line => AcceptedLine line.chars) := by
  refine ⟨?_, ?_, ?_, fun m hm m' hm' ip ip' h => LogMonthMapper.key_injective hm hm' h, ?_⟩
  · rw [e.output_eq, List.pairwise_map]
    exact e.ordering.increasing e.order_preserving
  · intro month hm ip
    have hout : (∃ n, (LogMonthMapper.key month ip, n) ∈ e.output) ↔
        LogMonthMapper.key month ip ∈ e.ordering.groups.map Prod.fst := by
      simp [e.output_eq, and_comm]
    rw [hout, e.key_mem_keys hm, mem_accepted]
  · intro r hr
    obtain ⟨m, a, hmem, hr⟩ := Execution.mem_output hr
    obtain ⟨line, _, hacc⟩ := mem_accepted.1 hmem
    exact ⟨m, hacc.1, a, hr⟩
  · rw [← length_accepted, ← e.length_groups, e.output_eq, List.map_map, ← sum_map_ofNat]
    rfl

/-- Two lines of one address and month, one of another month, and one that is not accepted. -/
def fourLines : List Text :=
  [⟨"9.9 - - [24/Apr/2011".toList⟩, ⟨"".toList⟩, ⟨"9.9 - - [24/Mar/2011".toList⟩,
    ⟨"9.9 - - 1/Apr/2 x".toList⟩]

/-- A run on these lines, with one task of each job -/
def fourLinesRun : Execution fourLines := Execution.first fourLines

theorem processLogs_counts_fourLines :
    fourLinesRun.output = [(⟨"Apr.9.9".toList⟩, 2), (⟨"Mar.9.9".toList⟩, 1)] ∧
    fourLinesRun.output.Pairwise (fun r r' => r.1 < r'.1) ∧
    (∃ n, (LogMonthMapper.key "Apr".toList "9.9".toList, n) ∈ fourLinesRun.output) ∧
    (∀ r ∈ fourLinesRun.output, ∃ month ∈ months, ∃ ip, r = (LogMonthMapper.key month ip,
      BitVec.ofNat 32 (fourLines.countP fun line => Accepted month ip line.chars))) ∧
    (fourLinesRun.output.map Prod.snd).sum
      = BitVec.ofNat 32 (fourLines.countP fun line => AcceptedLine line.chars) := by
  obtain ⟨hincreasing, hkeys, hrecords, -, hsum⟩ := processLogs_counts fourLinesRun
  have haccepted : ∃ line ∈ fourLines, Accepted "Apr".toList "9.9".toList line.chars := by decide
  exact ⟨by decide, hincreasing, (hkeys _ (by decide) _).2 haccepted, hrecords, hsum⟩

end ProcessLogs

end HadoopExamples
