import Mathlib.Data.List.Dedup
import Mathlib.Data.List.Perm.Basic

set_option autoImplicit false

/-! # Partitioned tables

A table that is partitioned by a column is a list of partitions, each with its value of the column
and its rows. Scanning the partitions whose value meets a condition gives the rows that meet it,
each as often as the table holds it (`scan_partitionBy`). -/

namespace Partition

variable {α κ : Type} [DecidableEq κ]

/-! ## Splitting a list into classes -/

theorem flatMap_filter_cons (f : α → κ) (x : α) (l : List α) :
    ∀ ks : List κ, ks.Nodup →
      (ks.flatMap fun k => (x :: l).filter fun a => f a = k).Perm
        ((if f x ∈ ks then [x] else []) ++ ks.flatMap fun k => l.filter fun a => f a = k) := by
  intro ks
  induction ks with
  | nil => intro _; simp
  | cons k ks ih =>
    intro hnd
    rw [List.nodup_cons] at hnd
    have htail := ih hnd.2
    rw [List.flatMap_cons, List.flatMap_cons]
    by_cases hx : f x = k
    · have hnot : f x ∉ ks := hx ▸ hnd.1
      rw [if_neg hnot, List.nil_append] at htail
      rw [if_pos (by simp [hx]), List.filter_cons_of_pos (by simpa using hx)]
      exact (htail.append_left _).cons x
    · have hmem : (if f x ∈ k :: ks then [x] else []) = if f x ∈ ks then [x] else [] := by
        simp [hx]
      rw [hmem, List.filter_cons_of_neg (by simpa using hx)]
      refine (htail.append_left _).trans ?_
      rw [← List.append_assoc, ← List.append_assoc]
      exact List.perm_append_comm.append_right _

/-- Filtering by each of some distinct classes in turn loses and repeats no element of theirs. -/
theorem flatMap_filter_perm (f : α → κ) {ks : List κ} (hnd : ks.Nodup) {l : List α}
    (hl : ∀ a ∈ l, f a ∈ ks) :
    (ks.flatMap fun k => l.filter fun a => f a = k).Perm l := by
  induction l with
  | nil => simp
  | cons x l ih =>
    refine (flatMap_filter_cons f x l ks hnd).trans ?_
    rw [if_pos (hl x (List.mem_cons_self ..)), List.singleton_append]
    exact (ih fun a ha => hl a (List.mem_cons_of_mem _ ha)).cons x

/-! ## Partitioning and scanning -/

/-- One partition for each value of the column. -/
def partitionBy (col : α → κ) (rows : List α) : List (κ × List α) :=
  (rows.map col).dedup.map fun k => (k, rows.filter fun row => col row = k)

/-- The rows of the partitions whose value meets the condition. -/
def scan (cond : κ → Bool) (partitions : List (κ × List α)) : List α :=
  (partitions.filter fun part => cond part.1).flatMap Prod.snd

theorem scan_partitionBy (col : α → κ) (cond : κ → Bool) (rows : List α) :
    (scan cond (partitionBy col rows)).Perm (rows.filter fun row => cond (col row)) := by
  have hkeys : ∀ k ∈ (rows.map col).dedup.filter cond,
      (rows.filter fun row => col row = k)
        = (rows.filter fun row => cond (col row)).filter fun row => col row = k := by
    intro k hk
    rw [List.filter_filter]
    refine List.filter_congr fun row _ => ?_
    by_cases hrow : col row = k
    · simp [hrow, (List.mem_filter.1 hk).2]
    · simp [hrow]
  have hscan : scan cond (partitionBy col rows)
      = ((rows.map col).dedup.filter cond).flatMap fun k =>
          (rows.filter fun row => cond (col row)).filter fun row => col row = k := by
    unfold scan partitionBy
    rw [List.filter_map, List.flatMap_map]
    exact List.flatMap_congr hkeys
  rw [hscan]
  refine flatMap_filter_perm col ((List.nodup_dedup _).filter _) fun row hrow => ?_
  have hmem := List.mem_filter.1 hrow
  exact List.mem_filter.2 ⟨List.mem_dedup.2 (List.mem_map_of_mem hmem.1), hmem.2⟩

end Partition
