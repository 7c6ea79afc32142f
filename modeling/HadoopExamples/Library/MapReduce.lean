import Mathlib.Data.List.Sort
import Mathlib.Data.List.Dedup
import Mathlib.Data.List.FinRange
import Mathlib.Data.List.Infix
import Mathlib.Data.List.Perm.Basic
import HadoopExamples.Library.Partition

set_option autoImplicit false

/-! # MapReduce jobs and the shuffle

A job maps every input element to a list of key-value records and reduces every key with the list
of its values. What a framework promises about the way between the two is a relation, not a
function: `ReducerInput` says that a reducer gets every record of its partition once, all values of
a key in one call, keys in increasing order, and says nothing about the order of the values.
`Execution` bundles one way to run a job: a division of the input among map tasks, an assignment
of keys to reducers and a shuffle that obeys the promise.

The results are about `Grouping`, the part of the promise that does not depend on where the keys
went: `Execution.grouping_input` turns any execution into a grouping of the records that mapping
the whole input gives, and `Execution.increasing` adds the order of the keys for an
order-preserving assignment. -/

namespace MapReduce

variable {ι κ ν ω : Type}

/-! ## Grouping records by key -/

/-- The records that a list of groups stands for. -/
def ungroup (groups : List (κ × List ν)) : List (κ × ν) :=
  groups.flatMap fun g => g.2.map (Prod.mk g.1)

/-- The values that `records` hold under the key `k`. -/
def valuesOf [DecidableEq κ] (records : List (κ × ν)) (k : κ) : List ν :=
  (records.filter fun r => r.1 = k).map Prod.snd

/-- `groups` holds every record once and all values of a key in one group. -/
structure Grouping (records : List (κ × ν)) (groups : List (κ × List ν)) : Prop where
  delivered : (ungroup groups).Perm records
  nonempty : ∀ g ∈ groups, g.2 ≠ []
  keys_nodup : (groups.map Prod.fst).Nodup

theorem Grouping.of_perm {records records' : List (κ × ν)} {groups : List (κ × List ν)}
    (h : Grouping records groups) (hp : records.Perm records') : Grouping records' groups :=
  ⟨h.delivered.trans hp, h.nonempty, h.keys_nodup⟩

theorem mem_ungroup {groups : List (κ × List ν)} {k : κ} {v : ν} :
    (k, v) ∈ ungroup groups ↔ ∃ vs, (k, vs) ∈ groups ∧ v ∈ vs := by
  simp only [ungroup, List.mem_flatMap, List.mem_map, Prod.mk.injEq]
  constructor
  · rintro ⟨⟨k', vs⟩, hg, v', hv, rfl, rfl⟩
    exact ⟨vs, hg, hv⟩
  · rintro ⟨vs, hg, hv⟩
    exact ⟨(k, vs), hg, v, hv, rfl, rfl⟩

/-- A key has a group exactly when it has a record. -/
theorem Grouping.mem_keys {records : List (κ × ν)} {groups : List (κ × List ν)}
    (h : Grouping records groups) (k : κ) :
    k ∈ groups.map Prod.fst ↔ ∃ v, (k, v) ∈ records := by
  simp only [← h.delivered.mem_iff, mem_ungroup]
  constructor
  · intro hk
    obtain ⟨⟨_, vs⟩, hg, rfl⟩ := List.mem_map.1 hk
    obtain ⟨v, hv⟩ := List.exists_mem_of_ne_nil vs (h.nonempty _ hg)
    exact ⟨v, vs, hg, hv⟩
  · rintro ⟨_, vs, hg, _⟩
    exact List.mem_map_of_mem hg

section Values

variable [DecidableEq κ]

theorem valuesOf_perm {records records' : List (κ × ν)} (hp : records.Perm records') (k : κ) :
    (valuesOf records k).Perm (valuesOf records' k) :=
  (hp.filter _).map _

theorem valuesOf_append (records records' : List (κ × ν)) (k : κ) :
    valuesOf (records ++ records') k = valuesOf records k ++ valuesOf records' k := by
  simp [valuesOf]

theorem map_mk_valuesOf (records : List (κ × ν)) (k : κ) :
    (valuesOf records k).map (Prod.mk k) = records.filter fun kv => kv.1 = k := by
  rw [valuesOf, List.map_map]
  refine (List.map_congr_left fun kv hkv => ?_).trans (List.map_id _)
  have hk : kv.1 = k := by simpa using (List.mem_filter.1 hkv).2
  exact Prod.ext hk.symm rfl

theorem mem_valuesOf {records : List (κ × ν)} {k : κ} {v : ν} :
    v ∈ valuesOf records k ↔ (k, v) ∈ records := by
  simp [valuesOf]

theorem nodup_valuesOf {records : List (κ × ν)} (h : records.Nodup) (k : κ) :
    (valuesOf records k).Nodup := by
  refine List.Nodup.of_map (Prod.mk k) ?_
  rw [map_mk_valuesOf]
  exact h.filter _

theorem countP_valuesOf [DecidableEq ν] (records : List (κ × ν)) (k : κ) (v : ν) :
    ((valuesOf records k).countP fun v' => v' = v) = records.countP fun kv => kv = (k, v) := by
  rw [valuesOf, List.countP_map, List.countP_filter]
  refine List.countP_congr fun kv _ => ?_
  simp [Prod.ext_iff, and_comm]

theorem valuesOf_ne_nil {records : List (κ × ν)} {k : κ} (hk : k ∈ records.map Prod.fst) :
    valuesOf records k ≠ [] := by
  obtain ⟨kv, hkv, rfl⟩ := List.mem_map.1 hk
  exact List.ne_nil_of_mem (List.mem_map_of_mem (List.mem_filter.2 ⟨hkv, by simp⟩))

/-- Collecting the values of each key, in whatever order of the keys. -/
theorem grouping_valuesOf {records : List (κ × ν)} {ks : List κ} (hnd : ks.Nodup)
    (hmem : ∀ k, k ∈ ks ↔ k ∈ records.map Prod.fst) :
    Grouping records (ks.map fun k => (k, valuesOf records k)) := by
  refine ⟨?_, ?_, ?_⟩
  · rw [ungroup, List.flatMap_map]
    simp only [map_mk_valuesOf]
    exact Partition.flatMap_filter_perm Prod.fst hnd
      fun kv hkv => (hmem kv.1).2 (List.mem_map_of_mem hkv)
  · intro g hg
    obtain ⟨k, hk, rfl⟩ := List.mem_map.1 hg
    exact valuesOf_ne_nil ((hmem k).1 hk)
  · rw [List.map_map]
    exact (List.map_id _).symm ▸ hnd

theorem valuesOf_map_mk (k k' : κ) (vs : List ν) :
    valuesOf (vs.map (Prod.mk k)) k' = if k = k' then vs else [] := by
  by_cases hk : k = k' <;> simp [valuesOf, List.filter_map, Function.comp_def, hk]

theorem valuesOf_ungroup_not_mem {groups : List (κ × List ν)} {k : κ}
    (hk : k ∉ groups.map Prod.fst) : valuesOf (ungroup groups) k = [] := by
  induction groups with
  | nil => rfl
  | cons g rest ih =>
    rw [List.map_cons, List.mem_cons, not_or] at hk
    rw [ungroup, List.flatMap_cons, valuesOf_append, valuesOf_map_mk, if_neg (Ne.symm hk.1),
      List.nil_append]
    exact ih hk.2

theorem valuesOf_ungroup {groups : List (κ × List ν)} (hnd : (groups.map Prod.fst).Nodup)
    {k : κ} {vs : List ν} (hg : (k, vs) ∈ groups) : valuesOf (ungroup groups) k = vs := by
  induction groups with
  | nil => simp at hg
  | cons g rest ih =>
    rw [List.map_cons, List.nodup_cons] at hnd
    rw [ungroup, List.flatMap_cons, valuesOf_append, valuesOf_map_mk]
    rcases List.mem_cons.1 hg with rfl | hg
    · rw [if_pos rfl]
      exact (congrArg (vs ++ ·) (valuesOf_ungroup_not_mem hnd.1)).trans (List.append_nil vs)
    · have hne : g.1 ≠ k := fun hk => hnd.1 (hk ▸ List.mem_map_of_mem hg)
      rw [if_neg hne, List.nil_append]
      exact ih hnd.2 hg

/-- The values of a group are the values of its key, in some order. -/
theorem Grouping.values_perm {records : List (κ × ν)} {groups : List (κ × List ν)}
    (h : Grouping records groups) {k : κ} {vs : List ν} (hg : (k, vs) ∈ groups) :
    vs.Perm (valuesOf records k) := by
  rw [← valuesOf_ungroup h.keys_nodup hg]
  exact valuesOf_perm h.delivered k

/-- Records that all carry the same value: a group has one copy for each record of its key. -/
theorem Grouping.values_replicate {α : Type} {f : α → κ} {v : ν} {l : List α}
    {groups : List (κ × List ν)} (h : Grouping (l.map fun a => (f a, v)) groups) {k : κ}
    {vs : List ν} (hg : (k, vs) ∈ groups) :
    vs.Perm (List.replicate (l.countP fun a => f a = k) v) := by
  refine (h.values_perm hg).trans (List.Perm.of_eq ?_)
  rw [valuesOf, List.filter_map, List.map_map, List.countP_eq_length_filter]
  exact List.map_const'

theorem valuesOf_copies (records : List (κ × ν)) (k : κ) (copies : ℕ) :
    (valuesOf (List.replicate copies records).flatten k).length
      = copies * (valuesOf records k).length := by
  induction copies with
  | zero => simp [valuesOf]
  | succ copies ih =>
    rw [List.replicate_succ, List.flatten_cons, valuesOf_append, List.length_append, ih,
      Nat.succ_mul, Nat.add_comm]

/-- Several tasks that write the same records, each under a key of its own: one group for each
    record, with one value from every task. -/
theorem Grouping.of_copies {records : List (κ × ν)} {groups : List (κ × List ν)} {copies : ℕ}
    (h : Grouping (List.replicate copies records).flatten groups) (hpos : 0 < copies)
    (hkeys : (records.map Prod.fst).Nodup) :
    groups.length = records.length ∧ ∀ g ∈ groups, g.2.length = copies := by
  have hmem : ∀ k, k ∈ groups.map Prod.fst ↔ k ∈ records.map Prod.fst := by
    intro k
    rw [h.mem_keys]
    simp [List.mem_flatten, List.mem_replicate, Nat.pos_iff_ne_zero.1 hpos]
  have hperm := (List.perm_ext_iff_of_nodup h.keys_nodup hkeys).2 hmem
  refine ⟨by simpa using hperm.length_eq, ?_⟩
  intro g hg
  have hk : g.1 ∈ records.map Prod.fst := (hmem g.1).1 (List.mem_map_of_mem hg)
  have hone : (valuesOf records g.1).length = 1 := by
    rw [valuesOf, List.length_map, ← List.countP_eq_length_filter,
      ← List.count_eq_one_of_mem hkeys hk, List.count, List.countP_map]
    exact List.countP_congr fun r _ => by simp
  rw [(h.values_perm hg).length_eq, valuesOf_copies, hone, Nat.mul_one]

end Values

/-! ## Records whose keys stand together -/

section Together

variable [DecidableEq κ]

/-- The records of a key are consecutive. -/
def KeysTogether (records : List (κ × ν)) : Prop :=
  ∀ k, (records.filter fun kv => kv.1 = k) <:+: records

/-- The groups of consecutive records, in the order of the records. -/
def groupsInOrder (records : List (κ × ν)) : List (κ × List ν) :=
  (records.map Prod.fst).dedup.map fun k => (k, valuesOf records k)

theorem keysTogether_iff {records : List (κ × ν)} :
    KeysTogether records ↔
      ∀ k ∈ records.map Prod.fst, (records.filter fun kv => kv.1 = k) <:+: records := by
  refine ⟨fun h k _ => h k, fun h k => ?_⟩
  by_cases hk : k ∈ records.map Prod.fst
  · exact h k hk
  · have hnil : (records.filter fun kv => kv.1 = k) = [] := by
      refine List.filter_eq_nil_iff.2 fun kv hkv => ?_
      simpa using fun heq : kv.1 = k => hk (heq ▸ List.mem_map_of_mem hkv)
    rw [hnil]
    exact List.nil_infix

instance [DecidableEq ν] (records : List (κ × ν)) : Decidable (KeysTogether records) :=
  decidable_of_iff _ keysTogether_iff.symm

theorem KeysTogether.tail {r : κ × ν} {records : List (κ × ν)} (h : KeysTogether (r :: records)) :
    KeysTogether records := by
  intro k
  have hk := h k
  by_cases hr : r.1 = k
  · rw [List.filter_cons_of_pos (by simpa using hr)] at hk
    rcases List.infix_cons_iff.1 hk with hinitial | hinfix
    · exact (List.cons_prefix_cons.1 hinitial).2.isInfix
    · exact (List.suffix_cons r _).isInfix.trans hinfix
  · rw [List.filter_cons_of_neg (by simpa using hr)] at hk
    rcases List.infix_cons_iff.1 hk with hinitial | hinfix
    · cases hfilter : records.filter fun kv => kv.1 = k with
      | nil => exact List.nil_infix
      | cons r' rest =>
        have hr' : r' ∈ records.filter fun kv => kv.1 = k := by simp [hfilter]
        rw [hfilter, List.cons_prefix_cons] at hinitial
        rw [hinitial.1] at hr'
        exact absurd (by simpa using (List.mem_filter.1 hr').2) hr
    · exact hinfix

/-- A key that comes back comes back at once. -/
theorem KeysTogether.head {r : κ × ν} {records : List (κ × ν)} (h : KeysTogether (r :: records))
    (hr : r.1 ∈ records.map Prod.fst) : (records.map Prod.fst).head? = some r.1 := by
  have hk := h r.1
  have hself : (records.filter fun kv => kv.1 = r.1).filter (fun kv => kv.1 = r.1)
      = records.filter fun kv => kv.1 = r.1 := by
    rw [List.filter_filter]
    simp
  rw [List.filter_cons_of_pos (by simp)] at hk
  rcases List.infix_cons_iff.1 hk with hinitial | hinfix
  · obtain ⟨r', hr', hkey⟩ := List.mem_map.1 hr
    have hmem : r' ∈ records.filter fun kv => kv.1 = r.1 :=
      List.mem_filter.2 ⟨hr', by simpa using hkey⟩
    have hinitial := (List.cons_prefix_cons.1 hinitial).2
    cases records with
    | nil => cases hr'
    | cons r₀ rest =>
      cases hfilter : (r₀ :: rest).filter fun kv => kv.1 = r.1 with
      | nil =>
        rw [hfilter] at hmem
        cases hmem
      | cons r₁ more =>
        have hr₁ : r₁ ∈ (r₀ :: rest).filter fun kv => kv.1 = r.1 := by simp [hfilter]
        rw [hfilter, List.cons_prefix_cons] at hinitial
        rw [hinitial.1] at hr₁
        have hkey₀ : r₀.1 = r.1 := by simpa using (List.mem_filter.1 hr₁).2
        rw [List.map_cons, List.head?_cons, hkey₀]
  · -- `r` would be one record of its key more than there are
    have hsub := hinfix.sublist.filter fun kv => kv.1 = r.1
    rw [List.filter_cons_of_pos (by simp), hself] at hsub
    have := hsub.length_le
    rw [List.length_cons] at this
    omega

theorem KeysTogether.head?_dedup {records : List (κ × ν)} (h : KeysTogether records) :
    (records.map Prod.fst).dedup.head? = (records.map Prod.fst).head? := by
  induction records with
  | nil => rfl
  | cons r records ih =>
    rw [List.map_cons, List.head?_cons]
    by_cases hr : r.1 ∈ records.map Prod.fst
    · rw [List.dedup_cons_of_mem hr, ih h.tail, h.head hr]
    · rw [List.dedup_cons_of_notMem hr, List.head?_cons]

theorem ungroup_groupsInOrder {records : List (κ × ν)} (h : KeysTogether records) :
    ungroup (groupsInOrder records) = records := by
  have hungroup : ∀ records : List (κ × ν), ungroup (groupsInOrder records)
      = (records.map Prod.fst).dedup.flatMap fun k => records.filter fun kv => kv.1 = k := by
    intro records
    rw [ungroup, groupsInOrder, List.flatMap_map]
    simp only [map_mk_valuesOf]
  rw [hungroup]
  induction records with
  | nil => rfl
  | cons r records ih =>
    have hrest := ih h.tail
    -- the groups of the other keys do not see the new record
    have hother : ∀ ks : List κ, r.1 ∉ ks → (ks.flatMap fun k => (r :: records).filter
        fun kv => kv.1 = k) = ks.flatMap fun k => records.filter fun kv => kv.1 = k := by
      intro ks hks
      refine List.flatMap_congr fun k hk => ?_
      have hne : r.1 ≠ k := fun heq => hks (heq ▸ hk)
      rw [List.filter_cons_of_neg (by simpa using hne)]
    by_cases hr : r.1 ∈ records.map Prod.fst
    · have hhead := h.tail.head?_dedup.trans (h.head hr)
      obtain ⟨ks, hks⟩ := List.head?_eq_some_iff.1 hhead
      have hnot : r.1 ∉ ks := (List.nodup_cons.1 (hks ▸ List.nodup_dedup _)).1
      rw [hks, List.flatMap_cons] at hrest
      rw [List.map_cons, List.dedup_cons_of_mem hr, hks, List.flatMap_cons, hother ks hnot,
        List.filter_cons_of_pos (by simp), List.cons_append, hrest]
    · have hnone : (records.filter fun kv => kv.1 = r.1) = [] := by
        refine List.filter_eq_nil_iff.2 fun kv hkv => ?_
        simpa using fun heq : kv.1 = r.1 => hr (heq ▸ List.mem_map_of_mem hkv)
      rw [List.map_cons, List.dedup_cons_of_notMem hr, List.flatMap_cons,
        hother _ (fun hmem => hr (List.mem_dedup.1 hmem)), hrest,
        List.filter_cons_of_pos (by simp), hnone]
      rfl

theorem grouping_groupsInOrder (records : List (κ × ν)) :
    Grouping records (groupsInOrder records) :=
  grouping_valuesOf (List.nodup_dedup _) fun _ => List.mem_dedup

end Together

/-! ## The shuffle -/

section Shuffle

variable [LinearOrder κ] {n : ℕ}

/-- What a reducer that is assigned `records` is called with: every record once, all values of a
    key in one call, keys in increasing order. -/
structure ReducerInput (records : List (κ × ν)) (groups : List (κ × List ν)) : Prop where
  delivered : (ungroup groups).Perm records
  nonempty : ∀ g ∈ groups, g.2 ≠ []
  increasing : groups.Pairwise fun g g' => g.1 < g'.1

theorem ReducerInput.grouping {records : List (κ × ν)} {groups : List (κ × List ν)}
    (h : ReducerInput records groups) : Grouping records groups :=
  ⟨h.delivered, h.nonempty, List.pairwise_map.2 (h.increasing.imp fun hlt => hlt.ne)⟩

/-- The shuffle: reducer `r` gets the records of the keys that are assigned to it. -/
def Shuffle (partition : κ → Fin n) (records : List (κ × ν))
    (inputs : Fin n → List (κ × List ν)) : Prop :=
  ∀ r, ReducerInput (records.filter fun kv => partition kv.1 = r) (inputs r)

/-- The groups of all reducers, in partition order. -/
def allGroups (inputs : Fin n → List (κ × List ν)) : List (κ × List ν) :=
  (List.finRange n).flatMap inputs

/-- A key that reducer `r` is called with is assigned to `r`. -/
theorem Shuffle.partition_eq {partition : κ → Fin n} {records : List (κ × ν)}
    {inputs : Fin n → List (κ × List ν)} (h : Shuffle partition records inputs) {r : Fin n}
    {g : κ × List ν} (hg : g ∈ inputs r) : partition g.1 = r := by
  obtain ⟨v, hv⟩ := ((h r).grouping.mem_keys g.1).1 (List.mem_map_of_mem hg)
  simpa using (List.mem_filter.1 hv).2

/-- Whatever the assignment of keys, all reducers together get a grouping of all records. -/
theorem Shuffle.grouping {partition : κ → Fin n} {records : List (κ × ν)}
    {inputs : Fin n → List (κ × List ν)} (h : Shuffle partition records inputs) :
    Grouping records (allGroups inputs) := by
  refine ⟨?_, ?_, ?_⟩
  · rw [ungroup, allGroups, List.flatMap_assoc]
    refine (List.Perm.flatMap_left _ fun r _ => (h r).delivered).trans ?_
    exact Partition.flatMap_filter_perm (fun kv : κ × ν => partition kv.1) (List.nodup_finRange n)
      fun kv _ => List.mem_finRange _
  · intro g hg
    obtain ⟨r, _, hr⟩ := List.mem_flatMap.1 hg
    exact (h r).nonempty g hr
  · rw [allGroups, List.map_flatMap, List.nodup_flatMap]
    refine ⟨fun r _ => (h r).grouping.keys_nodup, (List.nodup_finRange n).imp ?_⟩
    intro r r' hne k hk hk'
    obtain ⟨g, hg, rfl⟩ := List.mem_map.1 hk
    obtain ⟨g', hg', hgg'⟩ := List.mem_map.1 hk'
    exact hne ((h.partition_eq hg).symm.trans (hgg' ▸ h.partition_eq hg'))

/-- For an order-preserving assignment the keys increase across the reducers too. -/
theorem Shuffle.increasing {partition : κ → Fin n} {records : List (κ × ν)}
    {inputs : Fin n → List (κ × List ν)} (h : Shuffle partition records inputs)
    (hmono : Monotone partition) : (allGroups inputs).Pairwise fun g g' => g.1 < g'.1 := by
  rw [allGroups, List.pairwise_flatMap]
  refine ⟨fun r _ => (h r).increasing, (List.pairwise_lt_finRange n).imp ?_⟩
  intro r r' hlt g hg g' hg'
  by_contra hge
  have := hmono (not_lt.1 hge)
  rw [h.partition_eq hg, h.partition_eq hg'] at this
  exact absurd hlt (not_lt.2 this)

/-- One shuffle that keeps the promise: sort the keys, collect the values in arrival order. -/
def sortGroups (records : List (κ × ν)) : List (κ × List ν) :=
  ((records.map Prod.fst).dedup.insertionSort (· ≤ ·)).map fun k => (k, valuesOf records k)

theorem reducerInput_sortGroups (records : List (κ × ν)) :
    ReducerInput records (sortGroups records) := by
  have hnd : ((records.map Prod.fst).dedup.insertionSort (· ≤ ·)).Nodup :=
    (List.perm_insertionSort _ _).nodup_iff.2 (List.nodup_dedup _)
  have hgrouping : Grouping records (sortGroups records) := by
    refine grouping_valuesOf hnd fun k => ?_
    rw [(List.perm_insertionSort _ _).mem_iff, List.mem_dedup]
  refine ⟨hgrouping.delivered, hgrouping.nonempty, ?_⟩
  rw [sortGroups, List.pairwise_map]
  exact ((List.pairwise_insertionSort _ _).and hnd).imp fun hle => lt_of_le_of_ne hle.1 hle.2

theorem shuffle_sortGroups (partition : κ → Fin n) (records : List (κ × ν)) :
    Shuffle partition records fun r =>
      sortGroups (records.filter fun kv => partition kv.1 = r) :=
  fun _ => reducerInput_sortGroups _

end Shuffle

/-! ## Jobs -/

/-- A job: the records that one input element maps to, and the records that one reduce call
    writes. -/
structure Job (ι κ ν ω : Type) where
  map : ι → List (κ × ν)
  reduce : κ → List ν → List ω

/-- The records that the map tasks write, each task working through its own inputs. -/
def Job.mapPhase (job : Job ι κ ν ω) (tasks : List (List ι)) : List (κ × ν) :=
  tasks.flatMap fun task => task.flatMap job.map

theorem Job.mapPhase_eq (job : Job ι κ ν ω) (tasks : List (List ι)) :
    job.mapPhase tasks = tasks.flatten.flatMap job.map := by
  rw [← List.flatMap_id, List.flatMap_assoc]
  rfl

variable [LinearOrder κ] {n : ℕ}

/-- One way to run a job on `input` with `n` reducers: how the input is divided among map tasks,
    which reducer a key is assigned to, and what the shuffle makes of it. -/
structure Execution (job : Job ι κ ν ω) (input : List ι) (n : ℕ) where
  tasks : List (List ι)
  division : tasks.flatten.Perm input
  partition : κ → Fin n
  inputs : Fin n → List (κ × List ν)
  shuffle : Shuffle partition (job.mapPhase tasks) inputs

namespace Execution

variable {job : Job ι κ ν ω} {input : List ι}

/-- The execution with a single map task whose shuffle sorts the keys. -/
def sorted (job : Job ι κ ν ω) (input : List ι) (partition : κ → Fin n) :
    Execution job input n where
  tasks := [input]
  division := by simp
  partition := partition
  inputs := fun r => sortGroups ((job.mapPhase [input]).filter fun kv => partition kv.1 = r)
  shuffle := shuffle_sortGroups partition _

/-- The reduce calls of all reducers, in partition order. -/
def groups (e : Execution job input n) : List (κ × List ν) := allGroups e.inputs

/-- The concatenation of the reducers' outputs, in partition order. -/
def output (e : Execution job input n) : List ω := e.groups.flatMap fun g => job.reduce g.1 g.2

/-- Neither the division of the input nor the assignment of keys matters: the reduce calls group
    the records of the whole input. -/
theorem grouping_input (e : Execution job input n) : Grouping (input.flatMap job.map) e.groups := by
  refine e.shuffle.grouping.of_perm ?_
  rw [Job.mapPhase_eq]
  exact e.division.flatMap_right job.map

/-- For an order-preserving assignment the reduce calls come in increasing order of the keys. -/
theorem increasing (e : Execution job input n) (hmono : Monotone e.partition) :
    e.groups.Pairwise fun g g' => g.1 < g'.1 :=
  e.shuffle.increasing hmono

end Execution

end MapReduce
