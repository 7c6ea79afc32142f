import HadoopExamples.Library.Transition

set_option autoImplicit false

/-! # SimpleConsumer with --from-beginning

`SimpleConsumer.startConsuming` builds its `KafkaConsumer` and only then stores
`auto.offset.reset = earliest`, so the consumer runs with the default policy `latest`
(`main_autoOffsetReset`). The rebalance listener hides this: every assignment seeks to the log
start. It shows when retention overtakes the consumer, because the poll that finds its position
below the log start then jumps to the end of the log.

The second half is a partition and its consumer as a transition system, with the polls since the
last assignment as history, and `NeverSkips` as the promise of the option. The invariant of the
runs that keep it is `Covered`: the position passes no offset that is not accounted for. -/

namespace HadoopExamples.Kafka

/-! ## Configuration -/

/-- `java.util.Properties`. -/
abbrev Properties := String → Option String

def Properties.put (props : Properties) (key value : String) : Properties :=
  fun k => if k = key then some value else props k

/-- The parsed command line of `SimpleConsumer.parseArgs`. -/
structure CommandLine where
  topic : String
  bootstrapServers : String
  fromBeginning : Bool
  groupId : Option String

/-- What to do when there is no offset to continue from, or it is out of range. -/
inductive OffsetReset where
  | earliest
  | latest
  | none
deriving DecidableEq

/-- The parts of a consumer that decide its offsets. -/
structure KafkaConsumer where
  autoOffsetReset : OffsetReset
  topic : Option String
  /-- whether a `SeekToBeginningListener` was subscribed with the topic -/
  seekToBeginning : Bool

/-- A consumer takes its configuration from the properties as they are when it is constructed. -/
def KafkaConsumer.new (props : Properties) : KafkaConsumer where
  autoOffsetReset :=
    match props "auto.offset.reset" with
    | some "earliest" => .earliest
    | some "none" => .none
    | _ => .latest
  topic := none
  seekToBeginning := false

namespace SimpleConsumer

/-- `configure`; `uuid` is the random group id that stands in for a missing one. -/
def configure (cmd : CommandLine) (uuid : String) (props : Properties) : Properties :=
  let props := props.put "bootstrap.servers" cmd.bootstrapServers
  let props := match cmd.groupId with
    | some groupId => props.put "group.id" groupId
    | none => props.put "group.id" uuid
  let props := props.put "enable.auto.commit" "true"
  let props := props.put "auto.commit.interval.ms" "1000"
  let props := props.put "key.deserializer"
    "org.apache.kafka.common.serialization.StringDeserializer"
  props.put "value.deserializer" "org.apache.kafka.common.serialization.StringDeserializer"

/-- `startConsuming` up to the poll loop: the subscribed consumer, and the properties it leaves. -/
def startConsuming (cmd : CommandLine) (props : Properties) : KafkaConsumer × Properties :=
  let consumer := KafkaConsumer.new props
  if cmd.fromBeginning then
    -- the consumer above was built without this entry
    let props := props.put "auto.offset.reset" "earliest"
    ({ consumer with topic := some cmd.topic, seekToBeginning := true }, props)
  else
    ({ consumer with topic := some cmd.topic }, props)

/-- `main`, from the parsed command line to the poll loop. -/
def main (cmd : CommandLine) (uuid : String) : KafkaConsumer × Properties :=
  startConsuming cmd (configure cmd uuid fun _ => none)

end SimpleConsumer

/-! ## One partition and its consumer -/

/-- The retained records of a partition are those from `logStart` up to `logEnd`, exclusive. -/
structure Log where
  logStart : ℕ
  logEnd : ℕ
  le : logStart ≤ logEnd

/-- What one poll did: the position and the log start it found, the position it fetched from, and
    the one it left. -/
structure Poll where
  before : ℕ
  logStart : ℕ
  first : ℕ
  next : ℕ

/-- The offsets that the poll loop prints for a poll, in order. -/
def Poll.offsets (q : Poll) : List ℕ := List.range' q.first (q.next - q.first)

structure State where
  log : Log
  /-- `none` before the first assignment, or if there is nowhere to start -/
  position : Option ℕ
  /-- history: the log start at the last assignment -/
  assignedAt : ℕ
  /-- history: the polls since the last assignment, the latest first -/
  polls : List Poll

/-- Before the first assignment. -/
def init (log : Log) : State := ⟨log, none, 0, []⟩

inductive Event where
  | append (records : ℕ)
  /-- retention deletes records from the start of the log -/
  | retain (records : ℕ)
  /-- the partition is assigned, with the offset that the group last committed -/
  | assign (committed : Option ℕ)
  /-- a poll that returns up to `records` records -/
  | poll (records : ℕ)

/-- Where the policy resets a position to; `OffsetReset.none` throws instead. -/
def resetOffset (policy : OffsetReset) (log : Log) : Option ℕ :=
  match policy with
  | .earliest => some log.logStart
  | .latest => some log.logEnd
  | .none => none

/-- `SeekToBeginningListener.onPartitionsAssigned`: `seekToBeginning`, after logging. -/
def onPartitionsAssigned (log : Log) : ℕ := log.logStart

/-- The offset that a poll at `position` fetches from. -/
def fetchOffset (consumer : KafkaConsumer) (log : Log) (position : ℕ) : Option ℕ :=
  if log.logStart ≤ position ∧ position ≤ log.logEnd then some position
  else resetOffset consumer.autoOffsetReset log

def step (consumer : KafkaConsumer) (s : State) : Event → State
  | .append records =>
    { s with log := ⟨s.log.logStart, s.log.logEnd + records, Nat.le_add_right_of_le s.log.le⟩ }
  | .retain records =>
    { s with log := ⟨min (s.log.logStart + records) s.log.logEnd, s.log.logEnd,
        Nat.min_le_right _ _⟩ }
  | .assign committed =>
    let position := committed.or (resetOffset consumer.autoOffsetReset s.log)
    let position := if consumer.seekToBeginning then some (onPartitionsAssigned s.log) else position
    { s with position := position, assignedAt := s.log.logStart, polls := [] }
  | .poll records =>
    match s.position with
    | none => s
    | some position =>
      match fetchOffset consumer s.log position with
      -- the exception is caught and printed, and the loop polls again
      | none => s
      | some first =>
        let next := min (first + records) s.log.logEnd
        { s with position := some next, polls := ⟨position, s.log.logStart, first, next⟩ :: s.polls }

def run (consumer : KafkaConsumer) (s : State) (events : List Event) : State :=
  Transition.run (step consumer) s events

/-! ## The promise -/

/-- Since the last assignment, offset `o` was printed, or had fallen below the log start when the
    assignment or a poll moved past it. -/
def AccountedFor (s : State) (o : ℕ) : Prop :=
  (∃ q ∈ s.polls, o ∈ q.offsets) ∨ o < s.assignedAt ∨
    ∃ q ∈ s.polls, q.before ≤ o ∧ o < q.next ∧ o < q.logStart

/-- Whenever a record was printed, every smaller offset is accounted for. -/
def NeverSkips (s : State) : Prop :=
  ∀ q ∈ s.polls, ∀ o ∈ q.offsets, ∀ o' < o, AccountedFor s o'

instance (s : State) (o : ℕ) : Decidable (AccountedFor s o) :=
  inferInstanceAs (Decidable (_ ∨ _ ∨ _))

instance (s : State) : Decidable (NeverSkips s) :=
  inferInstanceAs (Decidable (∀ q ∈ s.polls, ∀ o ∈ q.offsets, ∀ o' < o, AccountedFor s o'))

/-- The position is below the log start while the log holds a record. -/
def Overtaken (s : State) : Prop :=
  ∃ position ∈ s.position, position < s.log.logStart ∧ s.log.logStart < s.log.logEnd

instance (s : State) : Decidable (Overtaken s) :=
  inferInstanceAs (Decidable (∃ position ∈ s.position, _ ∧ _))

/-- The condition on a step: retention has not overtaken the consumer when it polls. -/
def NotOvertaken (s : State) : Event → Prop
  | .poll _ => ¬ Overtaken s
  | _ => True

instance (s : State) : ∀ e, Decidable (NotOvertaken s e)
  | .poll _ => inferInstanceAs (Decidable (¬ Overtaken s))
  | .append _ => inferInstanceAs (Decidable True)
  | .retain _ => inferInstanceAs (Decidable True)
  | .assign _ => inferInstanceAs (Decidable True)

/-! ## The policy that the consumer runs with -/

/-- With the option or without it, the policy is the default: `configure` does not set it and
    `startConsuming` sets it too late. -/
theorem main_autoOffsetReset (cmd : CommandLine) (uuid : String) :
    (SimpleConsumer.main cmd uuid).1.autoOffsetReset = .latest := by
  have hnew : (KafkaConsumer.new (SimpleConsumer.configure cmd uuid fun _ => none)).autoOffsetReset
      = .latest := by
    unfold SimpleConsumer.configure KafkaConsumer.new
    cases cmd.groupId <;> simp [Properties.put]
  unfold SimpleConsumer.main SimpleConsumer.startConsuming
  split <;> exact hnew

theorem main_seekToBeginning {cmd : CommandLine} (hflag : cmd.fromBeginning = true)
    (uuid : String) : (SimpleConsumer.main cmd uuid).1.seekToBeginning = true := by
  unfold SimpleConsumer.main SimpleConsumer.startConsuming
  rw [if_pos hflag]

/-! ## What holds in every run -/

/-- The history never runs ahead of the position, nor the position of the log. -/
structure Bounded (s : State) : Prop where
  assignedAt : s.assignedAt ≤ s.log.logStart
  position : ∀ p, s.position = some p → p ≤ s.log.logEnd
  polls : ∀ q ∈ s.polls, ∃ p, s.position = some p ∧ q.next ≤ p

theorem bounded_init (log : Log) : Bounded (init log) :=
  ⟨Nat.zero_le _, nofun, nofun⟩

section Steps

variable {consumer : KafkaConsumer} {s : State}

/-- What a poll does under the policy `latest`: in range it returns the next records, and
    overtaken by retention it returns nothing and moves to the end of the log. -/
theorem step_poll (hpolicy : consumer.autoOffsetReset = .latest) (hb : Bounded s) {p : ℕ}
    (hp : s.position = some p) (records : ℕ) :
    (s.log.logStart ≤ p ∧ step consumer s (.poll records)
      = { s with
          position := some (min (p + records) s.log.logEnd)
          polls := ⟨p, s.log.logStart, p, min (p + records) s.log.logEnd⟩ :: s.polls }) ∨
    (p < s.log.logStart ∧ step consumer s (.poll records)
      = { s with
          position := some s.log.logEnd
          polls := ⟨p, s.log.logStart, s.log.logEnd, s.log.logEnd⟩ :: s.polls }) := by
  have hle := hb.position p hp
  by_cases hstart : s.log.logStart ≤ p
  · refine Or.inl ⟨hstart, ?_⟩
    simp only [step, hp, fetchOffset]
    rw [if_pos ⟨hstart, hle⟩]
  · refine Or.inr ⟨by omega, ?_⟩
    simp only [step, hp, fetchOffset]
    rw [if_neg (fun h => hstart h.1), hpolicy]
    simp [resetOffset]

theorem Bounded.step (hpolicy : consumer.autoOffsetReset = .latest)
    (hseek : consumer.seekToBeginning = true) (hb : Bounded s) (e : Event) :
    Bounded (step consumer s e) := by
  cases e with
  | append records =>
    exact ⟨hb.assignedAt, fun p hp => Nat.le_trans (hb.position p hp) (Nat.le_add_right _ _), hb.polls⟩
  | retain records =>
    have hstart : s.assignedAt ≤ min (s.log.logStart + records) s.log.logEnd := by
      have := hb.assignedAt
      have := s.log.le
      omega
    exact ⟨hstart, hb.position, hb.polls⟩
  | assign committed =>
    refine ⟨Nat.le_refl _, fun p hp => ?_, nofun⟩
    simp only [Kafka.step, hseek, if_true, onPartitionsAssigned, Option.some.injEq] at hp
    exact hp ▸ s.log.le
  | poll records =>
    cases hp : s.position with
    | none =>
      have hstay : Kafka.step consumer s (.poll records) = s := by simp only [Kafka.step, hp]
      rw [hstay]
      exact hb
    | some p =>
      -- the new poll ends at the new position, and the older ones do not end after the old one
      have hpolls : ∀ p', p ≤ p' → ∀ q ∈ s.polls, q.next ≤ p' := by
        intro p' hle q hq
        obtain ⟨p₀, hp₀, hnext⟩ := hb.polls q hq
        rw [hp, Option.some.injEq] at hp₀
        omega
      have hend := hb.position p hp
      rcases step_poll hpolicy hb hp records with ⟨hle, heq⟩ | ⟨hlt, heq⟩
      · rw [heq]
        refine ⟨hb.assignedAt, fun p' hp' => ?_, fun q hq => ⟨_, rfl, ?_⟩⟩
        · rw [← Option.some.inj hp']
          exact Nat.min_le_right _ _
        · rcases List.mem_cons.1 hq with rfl | hq
          · exact Nat.le_refl _
          · exact hpolls _ (by omega) q hq
      · rw [heq]
        refine ⟨hb.assignedAt, fun p' hp' => ?_, fun q hq => ⟨_, rfl, ?_⟩⟩
        · exact Nat.le_of_eq (Option.some.inj hp').symm
        · rcases List.mem_cons.1 hq with rfl | hq
          · exact Nat.le_refl _
          · exact hpolls _ hend q hq

/-! ## Runs in which retention does not overtake the consumer -/

/-- The position passes no offset that is not accounted for. -/
structure Covered (s : State) : Prop extends Bounded s where
  covered : ∀ p, s.position = some p → ∀ o < p, AccountedFor s o

theorem covered_init (log : Log) : Covered (init log) :=
  ⟨bounded_init log, nofun⟩

/-- A poll that is added to the history keeps what was accounted for. -/
theorem AccountedFor.cons {o : ℕ} (h : AccountedFor s o) (position : Option ℕ) (q : Poll) :
    AccountedFor { s with position := position, polls := q :: s.polls } o := by
  rcases h with ⟨q', hq', ho⟩ | h | ⟨q', hq', ho⟩
  · exact Or.inl ⟨q', List.mem_cons_of_mem _ hq', ho⟩
  · exact Or.inr (Or.inl h)
  · exact Or.inr (Or.inr ⟨q', List.mem_cons_of_mem _ hq', ho⟩)

theorem Covered.step (hpolicy : consumer.autoOffsetReset = .latest)
    (hseek : consumer.seekToBeginning = true) {e : Event} (hguard : NotOvertaken s e)
    (h : Covered s) : Covered (step consumer s e) := by
  refine ⟨h.toBounded.step hpolicy hseek e, fun p' hp' o ho => ?_⟩
  cases e with
  | append records => exact h.covered p' hp' o ho
  | retain records => exact h.covered p' hp' o ho
  | assign committed =>
    simp only [Kafka.step, hseek, if_true, onPartitionsAssigned, Option.some.injEq] at hp'
    rw [← hp'] at ho
    exact Or.inr (Or.inl ho)
  | poll records =>
    cases hp : s.position with
    | none =>
      simp only [Kafka.step, hp] at hp'
      exact absurd hp' (by simp)
    | some p =>
      rcases step_poll hpolicy h.toBounded hp records with ⟨hle, heq⟩ | ⟨hlt, heq⟩
      · rw [heq] at hp' ⊢
        rcases Nat.lt_or_ge o p with hop | hop
        · exact (h.covered p hp o hop).cons _ _
        · refine Or.inl ⟨_, List.mem_cons_self .., List.mem_range'_1.2 ⟨hop, ?_⟩⟩
          have := Option.some.inj hp'
          simp only
          omega
      · -- the guard leaves only a log without records, all of which retention has deleted
        have hempty : s.log.logStart = s.log.logEnd := by
          have := s.log.le
          by_contra hne
          exact hguard ⟨p, hp, hlt, by omega⟩
        rw [heq] at hp' ⊢
        have hend := Option.some.inj hp'
        rcases Nat.lt_or_ge o p with hop | hop
        · exact (h.covered p hp o hop).cons _ _
        · refine Or.inr (Or.inr ⟨_, List.mem_cons_self .., hop, ?_, ?_⟩)
          · simp only
            omega
          · simp only
            omega

theorem Covered.neverSkips (h : Covered s) : NeverSkips s := by
  intro q hq o ho o' ho'
  obtain ⟨p, hp, hnext⟩ := h.polls q hq
  have := List.mem_range'_1.1 ho
  exact h.covered p hp o' (by omega)

/-- An offset that the assignment has not passed is accounted for by a poll that ends behind it: it
    was fetched there, or it was below the log start. -/
theorem AccountedFor.exists_poll {o : ℕ} (h : AccountedFor s o) (ho : s.assignedAt ≤ o) :
    ∃ q ∈ s.polls, o < q.next ∧ (q.first ≤ o ∨ o < q.logStart) := by
  rcases h with ⟨q, hq, hprinted⟩ | hassigned | ⟨q, hq, _, hnext, hdeleted⟩
  · have hrange := List.mem_range'_1.1 hprinted
    exact ⟨q, hq, by omega, Or.inl hrange.1⟩
  · omega
  · exact ⟨q, hq, hnext, Or.inr hdeleted⟩

/-- Once retention has overtaken the consumer, a poll, one new record and another poll print that
    record, and the record at the log start is never printed. -/
theorem Overtaken.skips (hpolicy : consumer.autoOffsetReset = .latest) (hb : Bounded s)
    (hover : Overtaken s) (records : ℕ) :
    ¬ NeverSkips (run consumer s [.poll records, .append 1, .poll 1]) := by
  obtain ⟨p, hp, hlt, hend⟩ := hover
  have hjump : step consumer s (.poll records) = { s with
      position := some s.log.logEnd
      polls := ⟨p, s.log.logStart, s.log.logEnd, s.log.logEnd⟩ :: s.polls } := by
    rcases step_poll hpolicy hb hp records with ⟨hle, -⟩ | ⟨-, heq⟩
    · omega
    · exact heq
  have hrun : run consumer s [.poll records, .append 1, .poll 1] = { s with
      log := ⟨s.log.logStart, s.log.logEnd + 1, Nat.le_add_right_of_le s.log.le⟩
      position := some (s.log.logEnd + 1)
      polls := ⟨s.log.logEnd, s.log.logStart, s.log.logEnd, s.log.logEnd + 1⟩ ::
        ⟨p, s.log.logStart, s.log.logEnd, s.log.logEnd⟩ :: s.polls } := by
    have hin : s.log.logStart ≤ s.log.logEnd ∧ s.log.logEnd ≤ s.log.logEnd + 1 := by omega
    simp only [run, Transition.run_cons, Transition.run_nil, hjump]
    simp [step, fetchOffset, hin]
  rw [hrun]
  intro hnever
  have hprinted : s.log.logEnd ∈ List.range' s.log.logEnd (s.log.logEnd + 1 - s.log.logEnd) := by
    rw [List.mem_range'_1]
    omega
  have haccounted := hnever _ (List.mem_cons_self ..) s.log.logEnd hprinted s.log.logStart hend
  -- the polls before the jump end at `p`, the jump returns nothing, and the log start stays
  obtain ⟨q, hq, hnext, hreason⟩ := haccounted.exists_poll hb.assignedAt
  rcases List.mem_cons.1 hq with rfl | hq
  · simp only at hreason
    omega
  · rcases List.mem_cons.1 hq with rfl | hq
    · simp only at hreason
      omega
    · obtain ⟨p', hp', hle⟩ := hb.polls q hq
      rw [hp, Option.some.injEq] at hp'
      omega

end Steps

/-! ## Runs of SimpleConsumer -/

section Runs

variable {cmd : CommandLine}

theorem bounded_run (hflag : cmd.fromBeginning = true) (uuid : String) (log : Log)
    (events : List Event) : Bounded (run (SimpleConsumer.main cmd uuid).1 (init log) events) := by
  have hseek := main_seekToBeginning hflag uuid
  have hall : Transition.Guarded (step (SimpleConsumer.main cmd uuid).1) (fun _ _ => True)
      (init log) events := Transition.guarded_of_forall fun _ _ => trivial
  have hstep : ∀ s e, True → Bounded s → Bounded (step (SimpleConsumer.main cmd uuid).1 s e) :=
    fun s e _ hb => hb.step (main_autoOffsetReset cmd uuid) hseek e
  unfold run
  exact Transition.run_invariant hstep (bounded_init log) hall

/-- With `--from-beginning`, a run in which no poll comes after retention has overtaken the consumer
    never skips a retained record; and every run in which retention has overtaken the consumer can
    go on to one that does. -/
theorem fromBeginning_neverSkips (hflag : cmd.fromBeginning = true) (uuid : String) (log : Log)
    (events : List Event) :
    (Transition.Guarded (step (SimpleConsumer.main cmd uuid).1) NotOvertaken (init log) events →
      ∀ s ∈ Transition.states (step (SimpleConsumer.main cmd uuid).1) (init log) events,
        NeverSkips s) ∧
    (Overtaken (run (SimpleConsumer.main cmd uuid).1 (init log) events) →
      ∃ more, ¬ NeverSkips (run (SimpleConsumer.main cmd uuid).1 (init log) (events ++ more))) := by
  have hpolicy := main_autoOffsetReset cmd uuid
  have hseek := main_seekToBeginning hflag uuid
  constructor
  · intro hguarded s hs
    have hcovered := Transition.states_invariant
      (fun s e hg h => Covered.step hpolicy hseek hg h) (covered_init log) hguarded s hs
    exact hcovered.neverSkips
  · intro hover
    refine ⟨[.poll 0, .append 1, .poll 1], ?_⟩
    rw [run, Transition.run_append]
    exact hover.skips hpolicy (bounded_run hflag uuid log events) 0

end Runs

/-- `--topic logs --from-beginning --bootstrap-server localhost:9092` -/
def fromBeginning : CommandLine := ⟨"logs", "localhost:9092", true, none⟩

/-- Retention deletes a record that was printed, and the two records left follow; or it deletes the
    first of three before the first poll. -/
theorem fromBeginning_neverSkips_retention :
    (∀ s ∈ Transition.states (step (SimpleConsumer.main fromBeginning "group").1)
      (init ⟨0, 0, Nat.le_refl 0⟩) [.append 3, .assign none, .poll 1, .retain 1, .poll 5],
      NeverSkips s) ∧
    ∃ more, ¬ NeverSkips (run (SimpleConsumer.main fromBeginning "group").1
      (init ⟨0, 0, Nat.le_refl 0⟩) ([.append 3, .assign none, .retain 1] ++ more)) :=
  ⟨(fromBeginning_neverSkips rfl "group" ⟨0, 0, Nat.le_refl 0⟩
      [.append 3, .assign none, .poll 1, .retain 1, .poll 5]).1 (by decide),
    (fromBeginning_neverSkips rfl "group" ⟨0, 0, Nat.le_refl 0⟩
      [.append 3, .assign none, .retain 1]).2 (by decide)⟩

/-- Retention deletes one record of three before the first poll. The consumer moves to the end of
    the log and prints the next record to arrive, and the two that were retained are skipped. -/
theorem fromBeginning_skips :
    ¬ NeverSkips (run (SimpleConsumer.main fromBeginning "group").1 (init ⟨0, 0, Nat.le_refl 0⟩)
      [.append 3, .assign none, .retain 1, .poll 5, .append 1, .poll 1]) := by
  decide

end HadoopExamples.Kafka
