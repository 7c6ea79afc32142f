import Mathlib.Algebra.BigOperators.Group.List.Basic
import Mathlib.Data.Nat.Cast.Basic
import HadoopExamples.Library.MapReduce

set_option autoImplicit false

/-! # What the Spark scripts use of RDDs

An RDD is a list of elements whose order means nothing: it depends on the partitions, and an RDD
that two actions use is computed for each of them. So an operation that shuffles is a relation
between the elements before and after it. -/

namespace HadoopExamples.Spark

variable {α β κ ν ω : Type}

/-- `reduce(f)` on a non-empty list: its elements are combined two by two, in any order. -/
inductive Reduces (f : ν → ν → ν) : List ν → ν → Prop
  | single (v : ν) : Reduces f [v] v
  | combine {l l' : List ν} {v v' : ν} : Reduces f l v → Reduces f l' v' →
    Reduces f (l ++ l') (f v v')
  | perm {l l' : List ν} {v : ν} : l.Perm l' → Reduces f l v → Reduces f l' v

/-- A sum does not depend on how the numbers are combined. -/
theorem Reduces.eq_sum [AddCommMonoid ν] {l : List ν} {v : ν} (h : Reduces (· + ·) l v) :
    v = l.sum := by
  induction h with
  | single v => rw [List.sum_singleton]
  | combine _ _ ih ih' => rw [List.sum_append, ih, ih']
  | perm hperm _ ih => rw [ih, hperm.sum_eq]

theorem Reduces.sum [AddCommMonoid ν] {l : List ν} (h : l ≠ []) : Reduces (· + ·) l l.sum := by
  induction l with
  | nil => exact absurd rfl h
  | cons v l ih =>
    cases l with
    | nil =>
      rw [List.sum_singleton]
      exact Reduces.single v
    | cons v' l =>
      rw [List.sum_cons]
      exact Reduces.combine (Reduces.single v) (ih (List.cons_ne_nil _ _))

/-- `rdd.reduceByKey(f)` -/
structure ReduceByKey [DecidableEq κ] (f : ν → ν → ν) (rdd result : List (κ × ν)) : Prop where
  nodup : (result.map Prod.fst).Nodup
  mem_keys : ∀ k, k ∈ result.map Prod.fst ↔ k ∈ rdd.map Prod.fst
  reduces : ∀ k v, (k, v) ∈ result → Reduces f (MapReduce.valuesOf rdd k) v

/-- `rdd.groupByKey()` -/
abbrev GroupByKey (rdd : List (κ × ν)) (result : List (κ × List ν)) : Prop :=
  MapReduce.Grouping rdd result

/-- `rdd.distinct()` -/
structure Distinct (rdd result : List α) : Prop where
  nodup : result.Nodup
  mem_iff : ∀ a, a ∈ result ↔ a ∈ rdd

/-- `rdd.join(other)` -/
def Join [DecidableEq κ] (rdd : List (κ × ν)) (other : List (κ × ω))
    (result : List (κ × ν × ω)) : Prop :=
  result.Perm (rdd.flatMap fun kv =>
    (other.filter fun kw => kw.1 = kv.1).map fun kw => (kv.1, kv.2, kw.2))

/-- `rdd.countByKey().get(k)` -/
def countByKey [DecidableEq κ] (rdd : List (κ × ν)) (k : κ) : Option ℕ :=
  match rdd.countP fun kv => kv.1 = k with
  | 0 => none
  | n => some n

theorem countP_eq_count [DecidableEq α] [BEq α] [LawfulBEq α] (l : List α) (a : α) :
    (l.countP fun b => b = a) = l.count a :=
  List.countP_congr fun _ _ => by simp

theorem countByKey_eq [DecidableEq κ] {rdd : List (κ × ν)} {k : κ} (hk : k ∈ rdd.map Prod.fst) :
    countByKey rdd k = some (rdd.countP fun kv => kv.1 = k) := by
  obtain ⟨kv, hkv, rfl⟩ := List.mem_map.1 hk
  have hpos : 0 < rdd.countP fun kv' => kv'.1 = kv.1 :=
    List.countP_pos_iff.2 ⟨kv, hkv, by simp⟩
  unfold countByKey
  split
  · omega
  · rfl

/-! ## Joins -/

section Joins

variable [DecidableEq κ] {rdd : List (κ × ν)} {other : List (κ × ω)} {result : List (κ × ν × ω)}

theorem Join.mem_iff (h : Join rdd other result) {k : κ} {v : ν} {w : ω} :
    (k, v, w) ∈ result ↔ (k, v) ∈ rdd ∧ (k, w) ∈ other := by
  rw [List.Perm.mem_iff h]
  simp only [List.mem_flatMap, List.mem_map, List.mem_filter, decide_eq_true_eq, Prod.mk.injEq,
    Prod.exists]
  constructor
  · rintro ⟨k', v', hv, k'', w', ⟨hw, rfl⟩, rfl, rfl, rfl⟩
    exact ⟨hv, hw⟩
  · rintro ⟨hv, hw⟩
    exact ⟨k, v, hv, k, w, ⟨hw, rfl⟩, rfl, rfl, rfl⟩

/-- A join of records with different keys has different keys. -/
theorem Join.nodup_keys (h : Join rdd other result) (hrdd : (rdd.map Prod.fst).Nodup)
    (hother : (other.map Prod.fst).Nodup) : (result.map Prod.fst).Nodup := by
  rw [(List.Perm.map Prod.fst h).nodup_iff, List.map_flatMap, List.nodup_flatMap]
  refine ⟨fun kv _ => ?_, ?_⟩
  · have hsame : (other.filter fun kw => kw.1 = kv.1).Pairwise fun _ _ => False := by
      refine ((List.pairwise_map.1 hother).sublist List.filter_sublist).imp_of_mem ?_
      intro kw kw' hkw hkw' hne
      have hk : kw.1 = kv.1 := of_decide_eq_true (List.mem_filter.1 hkw).2
      have hk' : kw'.1 = kv.1 := of_decide_eq_true (List.mem_filter.1 hkw').2
      exact hne (hk.trans hk'.symm)
    rw [List.map_map]
    exact List.pairwise_map.2 (hsame.imp fun hfalse => hfalse.elim)
  · refine (List.pairwise_map.1 hrdd).imp ?_
    intro kv kv' hne k hk hk'
    simp only [List.map_map, List.mem_map] at hk hk'
    obtain ⟨_, _, rfl⟩ := hk
    obtain ⟨_, _, heq⟩ := hk'
    exact hne heq.symm

end Joins

/-! ## Functions that fail

A function that raises an exception on one element fails the whole job. -/

section Exceptions

variable {ε : Type} {f : α → Except ε β}

theorem mapM_ok {g : α → β} {rdd : List α} (h : ∀ a ∈ rdd, f a = .ok (g a)) :
    rdd.mapM f = .ok (rdd.map g) := by
  induction rdd with
  | nil => rfl
  | cons a rdd ih =>
    rw [List.mapM_cons, h a List.mem_cons_self, ih fun b hb => h b (List.mem_cons_of_mem _ hb)]
    rfl

theorem exists_of_mapM_ok {rdd : List α} {result : List β} (h : rdd.mapM f = .ok result) :
    ∀ a ∈ rdd, ∃ b, f a = .ok b := by
  induction rdd generalizing result with
  | nil => exact nofun
  | cons a rdd ih =>
    rw [List.mapM_cons] at h
    cases ha : f a with
    | error e =>
      rw [ha] at h
      cases h
    | ok b =>
      cases hrest : rdd.mapM f with
      | error e =>
        rw [ha, hrest] at h
        cases h
      | ok rest => exact List.forall_mem_cons.2 ⟨⟨b, ha⟩, ih hrest⟩

end Exceptions

/-! ## Counting by key

The scripts count by adding up ones. -/

section Counts

variable [DecidableEq κ] [AddCommMonoidWithOne ν] {ks : List κ} {result : List (κ × ν)}

theorem valuesOf_ones (ks : List κ) (k : κ) :
    MapReduce.valuesOf (ks.map fun k => (k, (1 : ν))) k
      = List.replicate (ks.countP fun k' => k' = k) 1 := by
  rw [MapReduce.valuesOf, List.filter_map, List.map_map, List.countP_eq_length_filter]
  exact List.map_const'

theorem ReduceByKey.eq_count (h : ReduceByKey (· + ·) (ks.map fun k => (k, (1 : ν))) result)
    {k : κ} {n : ν} (hk : (k, n) ∈ result) : n = ((ks.countP fun k' => k' = k : ℕ) : ν) := by
  rw [(h.reduces k n hk).eq_sum, valuesOf_ones, List.sum_replicate, nsmul_one]

theorem ReduceByKey.mem_keys_ones
    (h : ReduceByKey (· + ·) (ks.map fun k => (k, (1 : ν))) result) {k : κ} :
    k ∈ result.map Prod.fst ↔ k ∈ ks := by
  rw [h.mem_keys, List.map_map]
  simp

/-- The counts in the order of the keys. -/
theorem reduceByKey_ones (ks : List κ) : ReduceByKey (· + ·) (ks.map fun k => (k, (1 : ν)))
    (ks.dedup.map fun k => (k, ((ks.countP fun k' => k' = k : ℕ) : ν))) := by
  have hkeys : (ks.dedup.map fun k =>
      (k, ((ks.countP fun k' => k' = k : ℕ) : ν))).map Prod.fst = ks.dedup := by
    rw [List.map_map]
    exact List.map_id _
  refine ⟨by rw [hkeys]; exact List.nodup_dedup ks, fun k => ?_, fun k n hk => ?_⟩
  · rw [hkeys, List.mem_dedup, List.map_map]
    simp
  · obtain ⟨k', hk', heq⟩ := List.mem_map.1 hk
    obtain ⟨rfl, rfl⟩ := Prod.mk.inj heq
    have hpos : 0 < ks.countP fun k => k = k' :=
      List.countP_pos_iff.2 ⟨k', List.mem_dedup.1 hk', by simp⟩
    have hones : List.replicate (ks.countP fun k => k = k') (1 : ν) ≠ [] :=
      List.ne_nil_of_length_pos (by simpa using hpos)
    have hsum := Reduces.sum hones
    rw [List.sum_replicate, nsmul_one] at hsum
    rwa [valuesOf_ones]

end Counts

end HadoopExamples.Spark
