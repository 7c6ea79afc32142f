import HadoopExamples.Library.Transition
import HadoopExamples.Platform.Java

set_option autoImplicit false

/-! # A job that its mappers kill

`TryKill` runs one map task for each line of its input, and a task that finds another line than
`100` asks the cluster to kill the job. Each of the three calls that this takes can fail, and the
task then ends as if nothing had happened. So a job with such a line is certain not to succeed only
if one of these tasks gets through all its calls (`succeeds_only_on_good_lines_iff`).

A run of the job is any interleaving of the steps of its tasks, as a list of task numbers. -/

namespace HadoopExamples.KillJobFromMapper

/-! ## KillMapper -/

/-- The one line that is not a reason to kill the job. -/
def hundred : JavaString := "100".toList

/-- What `jc.getJob(jobId)` does. -/
inductive GetJob where
  | throws
  | returnsNull
  | returnsJob
deriving DecidableEq

/-- The line of a task and the outcomes of the calls that it may make. -/
structure Input where
  line : JavaString
  newJobClientThrows : Bool
  getJob : GetJob
  killJobThrows : Bool
deriving DecidableEq

/-- Where a task is in `map` and `killJob`; `killing` knows whether `job` is a job or null. -/
inductive Phase where
  | mapping
  | creatingClient
  | lookingUp
  | killing (isJob : Bool)
  | ended
deriving DecidableEq

structure Task where
  input : Input
  phase : Phase
deriving DecidableEq

/-- The next step of a task, and whether it has killed the job. -/
def Task.next (t : Task) : Task × Bool :=
  match t.phase with
  | .mapping =>
    if t.input.line = hundred then ({ t with phase := .ended }, false)
    else ({ t with phase := .creatingClient }, false)
  | .creatingClient =>
    -- the exception is caught, and `killJob` returns
    if t.input.newJobClientThrows then ({ t with phase := .ended }, false)
    else ({ t with phase := .lookingUp }, false)
  | .lookingUp =>
    match t.input.getJob with
    | .throws => ({ t with phase := .ended }, false)
    | .returnsNull => ({ t with phase := .killing false }, false)
    | .returnsJob => ({ t with phase := .killing true }, false)
  | .killing isJob =>
    -- a null job is an exception that is caught too
    ({ t with phase := .ended }, isJob && !t.input.killJobThrows)
  | .ended => (t, false)

/-! ## TryKill -/

structure Job where
  tasks : List Task
  killed : Bool

/-- The job before its first step. -/
def Job.submit (inputs : List Input) : Job := ⟨inputs.map fun input => ⟨input, .mapping⟩, false⟩

/-- Task `i` makes its next step. -/
def Job.step (job : Job) (i : ℕ) : Job :=
  match job.tasks[i]? with
  | none => job
  | some t => ⟨job.tasks.set i t.next.1, job.killed || t.next.2⟩

def Job.run (inputs : List Input) (steps : List ℕ) : Job :=
  Transition.run Job.step (Job.submit inputs) steps

/-- `job.waitForCompletion(true)`: a killed job has failed, and a job whose tasks have all ended
    has succeeded; any other job is still running. -/
def Job.waitForCompletion (job : Job) : Option Bool :=
  if job.killed then some false
  else if job.tasks.all (·.phase = .ended) then some true
  else none

/-- The exit code of `TryKill`, when it has one. -/
def Job.exitCode (job : Job) : Option ℤ :=
  job.waitForCompletion.map fun success => if success then 0 else 1

/-! ## Who kills the job -/

/-- The line is a bad one and all three calls go well. -/
def Input.GetsThrough (input : Input) : Prop :=
  input.line ≠ hundred ∧ input.newJobClientThrows = false ∧ input.getJob = .returnsJob ∧
    input.killJobThrows = false

instance (input : Input) : Decidable input.GetsThrough := inferInstanceAs (Decidable (_ ∧ _))

/-- The task is where its input has brought it. -/
def Task.Consistent (t : Task) : Prop :=
  match t.phase with
  | .mapping => True
  | .creatingClient => t.input.line ≠ hundred
  | .lookingUp => t.input.line ≠ hundred ∧ t.input.newJobClientThrows = false
  | .killing isJob => t.input.line ≠ hundred ∧ t.input.newJobClientThrows = false ∧
      (isJob = true ↔ t.input.getJob = .returnsJob)
  | .ended => True

/-- The task has ended by killing the job. -/
def Task.HasKilled (t : Task) : Prop := t.phase = .ended ∧ t.input.GetsThrough

theorem Task.next_input (t : Task) : t.next.1.input = t.input := by
  unfold next
  split
  · split <;> rfl
  · split <;> rfl
  · split <;> rfl
  · rfl
  · rfl

theorem Task.next_consistent {t : Task} (h : t.Consistent) : t.next.1.Consistent := by
  obtain ⟨input, phase⟩ := t
  unfold next
  cases phase with
  | mapping =>
    by_cases hline : input.line = hundred
    · rw [if_pos hline]
      trivial
    · rw [if_neg hline]
      show input.line ≠ hundred
      exact hline
  | creatingClient =>
    by_cases hclient : input.newJobClientThrows = true
    · rw [if_pos hclient]
      trivial
    · rw [if_neg hclient]
      show input.line ≠ hundred ∧ input.newJobClientThrows = false
      exact ⟨h, Bool.eq_false_iff.2 hclient⟩
  | lookingUp =>
    cases hget : input.getJob with
    | throws => trivial
    | returnsNull =>
      show _ ∧ _ ∧ (false = true ↔ input.getJob = .returnsJob)
      exact ⟨h.1, h.2, by simp [hget]⟩
    | returnsJob =>
      show _ ∧ _ ∧ (true = true ↔ input.getJob = .returnsJob)
      exact ⟨h.1, h.2, by simp [hget]⟩
  | killing isJob => trivial
  | ended => trivial

/-- A step kills the job exactly if it is the last one of a task that gets through. -/
theorem Task.next_hasKilled {t : Task} (h : t.Consistent) :
    t.next.1.HasKilled ↔ t.HasKilled ∨ t.next.2 = true := by
  obtain ⟨input, phase⟩ := t
  unfold next HasKilled Input.GetsThrough
  cases phase with
  | mapping => by_cases hline : input.line = hundred <;> simp [hline]
  | creatingClient => by_cases hclient : input.newJobClientThrows = true <;> simp [hclient]
  | lookingUp => cases hget : input.getJob <;> simp [hget]
  | killing isJob =>
    obtain ⟨hline, hclient, hjob⟩ := h
    simp only [ne_eq] at hline hclient hjob
    simp [hline, hclient, hjob]
  | ended => simp

/-! ## All interleavings -/

/-- What holds in every state of a run: tasks keep their inputs and are where these have brought
    them, and the job is killed exactly if one of them has killed it. -/
structure Invariant (inputs : List Input) (job : Job) : Prop where
  inputs_eq : job.tasks.map Task.input = inputs
  consistent : ∀ t ∈ job.tasks, t.Consistent
  killed_iff : job.killed = true ↔ ∃ t ∈ job.tasks, t.HasKilled

theorem invariant_submit (inputs : List Input) : Invariant inputs (Job.submit inputs) := by
  unfold Job.submit
  refine ⟨?_, ?_, ?_⟩
  · rw [List.map_map]
    exact List.map_id _
  · intro t ht
    obtain ⟨input, _, rfl⟩ := List.mem_map.1 ht
    trivial
  · simp [Task.HasKilled]

/-- Replacing one element by one that has a property if the old one had it or `Q` holds. -/
theorem exists_mem_set_iff {α : Type} {P : α → Prop} {Q : Prop} {l : List α} {i : ℕ} {a a' : α}
    (hi : l[i]? = some a) (h : P a' ↔ P a ∨ Q) :
    (∃ x ∈ l.set i a', P x) ↔ (∃ x ∈ l, P x) ∨ Q := by
  induction l generalizing i with
  | nil => simp at hi
  | cons x l ih =>
    cases i with
    | zero =>
      obtain rfl : x = a := by simpa using hi
      simp only [List.set_cons_zero, List.exists_mem_cons_iff, h]
      exact or_right_comm
    | succ i =>
      simp only [List.set_cons_succ, List.exists_mem_cons_iff, ih (by simpa using hi)]
      exact or_assoc.symm

theorem invariant_step {inputs : List Input} {job : Job} (i : ℕ) (h : Invariant inputs job) :
    Invariant inputs (job.step i) := by
  unfold Job.step
  cases hi : job.tasks[i]? with
  | none => exact h
  | some t =>
    have hconsistent := h.consistent t (List.mem_of_getElem? hi)
    refine ⟨?_, ?_, ?_⟩
    · obtain ⟨hlt, rfl⟩ := List.getElem?_eq_some_iff.1 hi
      show (job.tasks.set i job.tasks[i].next.1).map Task.input = inputs
      rw [List.map_set, Task.next_input, ← List.getElem_map Task.input (h := by simpa using hlt),
        List.set_getElem_self, h.inputs_eq]
    · show ∀ t' ∈ job.tasks.set i t.next.1, t'.Consistent
      intro t' ht'
      rcases List.mem_or_eq_of_mem_set ht' with ht' | rfl
      · exact h.consistent t' ht'
      · exact Task.next_consistent hconsistent
    · show (job.killed || t.next.2) = true ↔ ∃ t' ∈ job.tasks.set i t.next.1, t'.HasKilled
      rw [exists_mem_set_iff hi (Task.next_hasKilled hconsistent), ← h.killed_iff, Bool.or_eq_true]

theorem invariant_run (inputs : List Input) (steps : List ℕ) :
    Invariant inputs (Job.run inputs steps) := by
  have hguard : Transition.Guarded Job.step (fun _ _ => True) (Job.submit inputs) steps :=
    Transition.guarded_of_forall fun _ _ => trivial
  exact Transition.run_invariant (fun _ i _ h => invariant_step i h) (invariant_submit inputs)
    hguard

/-! ## Every task comes to its end -/

/-- The most steps that a task has left. -/
def Phase.left : Phase → ℕ
  | .mapping => 4
  | .creatingClient => 3
  | .lookingUp => 2
  | .killing _ => 1
  | .ended => 0

theorem Phase.left_eq_zero_iff {phase : Phase} : phase.left = 0 ↔ phase = .ended := by
  cases phase <;> simp [left]

theorem Task.next_left (t : Task) : t.next.1.phase.left ≤ t.phase.left - 1 := by
  obtain ⟨input, phase⟩ := t
  unfold next
  cases phase with
  | mapping => simp only; split <;> simp [Phase.left]
  | creatingClient => simp only; split <;> simp [Phase.left]
  | lookingUp => simp only; split <;> simp [Phase.left]
  | killing isJob => simp [Phase.left]
  | ended => simp [Phase.left]

/-- Each step that a run gives a task brings it nearer to its end. -/
theorem left_run {job : Job} {steps : List ℕ} {i : ℕ} {t : Task}
    (ht : (Transition.run Job.step job steps).tasks[i]? = some t) :
    ∃ t₀, job.tasks[i]? = some t₀ ∧ t.phase.left ≤ t₀.phase.left - steps.count i := by
  induction steps generalizing job with
  | nil => exact ⟨t, ht, Nat.le_refl _⟩
  | cons j steps ih =>
    obtain ⟨t₁, ht₁, hleft⟩ := ih ht
    unfold Job.step at ht₁
    cases hj : job.tasks[j]? with
    | none =>
      rw [hj] at ht₁
      have hne : j ≠ i := by
        intro heq
        rw [heq, ht₁] at hj
        cases hj
      exact ⟨t₁, ht₁, by rwa [List.count_cons_of_ne hne]⟩
    | some t₀ =>
      rw [hj] at ht₁
      by_cases hji : j = i
      · obtain ⟨hlt, _⟩ := List.getElem?_eq_some_iff.1 hj
        have hnext : t₀.next.1 = t₁ := by
          rw [← hji] at ht₁
          simpa [List.getElem?_set_self hlt] using ht₁
        have := t₀.next_left
        rw [hnext] at this
        exact ⟨t₀, hji ▸ hj, by rw [hji, List.count_cons_self]; omega⟩
      · refine ⟨t₁, ?_, by rwa [List.count_cons_of_ne hji]⟩
        rwa [List.getElem?_set_ne hji] at ht₁

/-- A run that gives every task four steps brings them all to their end. -/
theorem ended_of_count {inputs : List Input} {steps : List ℕ}
    (hsteps : ∀ i < inputs.length, 4 ≤ steps.count i) :
    ∀ t ∈ (Job.run inputs steps).tasks, t.phase = .ended := by
  intro t ht
  obtain ⟨i, hi⟩ := List.mem_iff_getElem?.1 ht
  obtain ⟨t₀, ht₀, hleft⟩ := left_run hi
  obtain ⟨hlt, rfl⟩ := List.getElem?_eq_some_iff.1 ht₀
  have hcount := hsteps i (by simpa [Job.submit] using hlt)
  have hstart : (Job.submit inputs).tasks[i].phase = .mapping := by simp [Job.submit]
  rw [hstart] at hleft
  rw [← Phase.left_eq_zero_iff]
  have hfour : Phase.left .mapping = 4 := rfl
  omega

/-! ## When the job succeeds -/

theorem exitCode_eq_zero_iff {job : Job} :
    job.exitCode = some 0 ↔ job.killed = false ∧ ∀ t ∈ job.tasks, t.phase = .ended := by
  unfold Job.exitCode Job.waitForCompletion
  cases job.killed with
  | true => simp
  | false =>
    have hall : job.tasks.all (·.phase = .ended) = true ↔ ∀ t ∈ job.tasks, t.phase = .ended := by
      simp
    rw [← hall]
    cases job.tasks.all (·.phase = .ended) <;> simp

/-- A run succeeds only if none of its tasks gets through. -/
theorem not_getsThrough_of_exitCode {inputs : List Input} {steps : List ℕ}
    (h : (Job.run inputs steps).exitCode = some 0) : ∀ input ∈ inputs, ¬ input.GetsThrough := by
  intro input hinput hthrough
  have hinv := invariant_run inputs steps
  obtain ⟨hkilled, hended⟩ := exitCode_eq_zero_iff.1 h
  rw [← hinv.inputs_eq] at hinput
  obtain ⟨t, ht, rfl⟩ := List.mem_map.1 hinput
  have := hinv.killed_iff.2 ⟨t, ht, hended t ht, hthrough⟩
  rw [hkilled] at this
  cases this

/-- If no task gets through, any run that comes to an end succeeds. -/
theorem exitCode_of_not_getsThrough {inputs : List Input} {steps : List ℕ}
    (hnone : ∀ input ∈ inputs, ¬ input.GetsThrough)
    (hsteps : ∀ i < inputs.length, 4 ≤ steps.count i) :
    (Job.run inputs steps).exitCode = some 0 := by
  have hinv := invariant_run inputs steps
  refine exitCode_eq_zero_iff.2 ⟨?_, ended_of_count hsteps⟩
  rw [Bool.eq_false_iff]
  intro hkilled
  obtain ⟨t, ht, _, hthrough⟩ := hinv.killed_iff.1 hkilled
  exact hnone t.input (hinv.inputs_eq ▸ List.mem_map_of_mem ht) hthrough

/-- In all interleavings the job succeeds only on lines that are all `100`, exactly if they are, or
    if some task with another line gets through all its calls. -/
theorem succeeds_only_on_good_lines_iff (inputs : List Input) :
    (∀ steps, (Job.run inputs steps).exitCode = some 0 →
      ∀ input ∈ inputs, input.line = hundred) ↔
      (∀ input ∈ inputs, input.line = hundred) ∨ ∃ input ∈ inputs, input.GetsThrough := by
  constructor
  · intro h
    by_contra hnot
    rw [not_or] at hnot
    have hnone : ∀ input ∈ inputs, ¬ input.GetsThrough := fun input hinput hthrough =>
      hnot.2 ⟨input, hinput, hthrough⟩
    -- four rounds, one step for each task in turn
    refine hnot.1 (h (List.replicate 4 (List.range inputs.length)).flatten ?_)
    refine exitCode_of_not_getsThrough hnone fun i hi => ?_
    simp [List.count_eq_one_of_mem List.nodup_range (List.mem_range.2 hi)]
  · rintro (hgood | ⟨input, hinput, hthrough⟩) steps hexit
    · exact hgood
    · exact absurd hthrough (not_getsThrough_of_exitCode hexit input hinput)

/-- The task with the bad line cannot create its client, ends, and the job succeeds. -/
theorem succeeds_on_bad_line :
    (Job.run [⟨"CHAOS MONKEY".toList, true, .returnsJob, false⟩] [0, 0]).exitCode = some 0 ∧
      "CHAOS MONKEY".toList ≠ hundred := by
  decide

end HadoopExamples.KillJobFromMapper
