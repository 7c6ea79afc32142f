import Mathlib.Data.List.Dedup
import Mathlib.Data.List.Infix
import HadoopExamples.Library.KeySort

set_option autoImplicit false

/-! # Nullable columns, three-valued conditions and the clauses of a query

A nullable column holds `none` for NULL and a condition evaluates to `none` for unknown. Tables are
lists of rows, read as multisets, and a join or a WHERE clause keeps the rows whose condition is
true, not merely not false.

DISTINCT, GROUP BY and ORDER BY leave the engine a choice, so `Distinct` and `OrderedBy` are
relations between the rows before and after the clause.

`filterWhere_isNull_leftOuterJoin` is the rule behind the anti-join idiom `LEFT OUTER JOIN .. WHERE
col IS NULL`: it keeps the left rows without a match provided that `col` is not NULL in a match. -/

namespace Sql

variable {α β γ : Type}

/-! ## Truth values -/

/-- A truth value, `none` for unknown. -/
abbrev Truth := Option Bool

/-- A condition selects a row only when it is true. -/
def Truth.isTrue (t : Truth) : Bool := t == some true

def Truth.and : Truth → Truth → Truth
  | some false, _ => some false
  | _, some false => some false
  | some true, some true => some true
  | _, _ => none

def Truth.or : Truth → Truth → Truth
  | some true, _ => some true
  | _, some true => some true
  | some false, some false => some false
  | _, _ => none

/-- `x = y`: unknown as soon as one side is NULL. -/
def eq [DecidableEq α] : Option α → Option α → Truth
  | some a, some b => some (decide (a = b))
  | _, _ => none

/-- `x IS NULL`: never unknown. -/
def isNull (x : Option α) : Truth := some x.isNone

/-- `x IN (..)`: equal to one of the values, so unknown if it is not found and may be a NULL. -/
def inList [DecidableEq α] (x : Option α) (values : List (Option α)) : Truth :=
  values.foldr (fun y t => (eq x y).or t) (some false)

@[simp] theorem isTrue_and (s t : Truth) : (s.and t).isTrue = (s.isTrue && t.isTrue) := by
  rcases s with _ | _ | _ <;> rcases t with _ | _ | _ <;> rfl

@[simp] theorem isTrue_or (s t : Truth) : (s.or t).isTrue = (s.isTrue || t.isTrue) := by
  rcases s with _ | _ | _ <;> rcases t with _ | _ | _ <;> rfl

@[simp] theorem isTrue_eq [DecidableEq α] (x y : Option α) :
    (eq x y).isTrue = (x.isSome && decide (x = y)) := by
  cases x <;> cases y <;> simp [eq, Truth.isTrue]

@[simp] theorem isTrue_isNull (x : Option α) : (isNull x).isTrue = x.isNone := by
  cases x <;> rfl

/-- Neither a NULL nor anything among NULLs is found. -/
theorem isTrue_inList [DecidableEq α] {x : Option α} {values : List (Option α)} :
    (inList x values).isTrue = true ↔ x.isSome = true ∧ x ∈ values := by
  induction values with
  | nil => simp [inList, Truth.isTrue]
  | cons y values ih =>
    show ((eq x y).or (inList x values)).isTrue = true ↔ _
    rw [isTrue_or, Bool.or_eq_true, ih, isTrue_eq, List.mem_cons]
    simp only [Bool.and_eq_true, decide_eq_true_eq]
    tauto

/-- `s LIKE pattern`, for a pattern without escapes: `%` stands for any text and `_` for any
    character. -/
def like : List Char → List Char → Bool
  | [], s => s.isEmpty
  | '%' :: pattern, s => s.tails.any (like pattern)
  | '_' :: _, [] => false
  | '_' :: pattern, _ :: s => like pattern s
  | _ :: _, [] => false
  | c :: pattern, d :: s => c == d && like pattern s

/-- A pattern that ends in its only wildcard `%` asks for a prefix. -/
theorem like_append_percent {text : List Char} (htext : ∀ c ∈ text, c ≠ '%' ∧ c ≠ '_')
    (s : List Char) : like (text ++ ['%']) s = text.isPrefixOf s := by
  induction text generalizing s with
  | nil =>
    have hend : [] ∈ s.tails := (List.mem_tails [] s).2 (List.nil_suffix)
    exact List.any_eq_true.2 ⟨[], hend, rfl⟩
  | cons c text ih =>
    have hc := htext c (List.mem_cons_self ..)
    have hrest := ih fun d hd => htext d (List.mem_cons_of_mem _ hd)
    cases s with
    | nil => simp [like, hc.1, hc.2]
    | cons d s => simp [like, hc.1, hc.2, hrest, List.isPrefixOf]

/-! ## Joins -/

def filterWhere (cond : α → Truth) (rows : List α) : List α :=
  rows.filter fun row => (cond row).isTrue

/-- The rows of the right table that match a left row. -/
def matching (on : α → β → Truth) (r : List β) (a : α) : List β :=
  r.filter fun b => (on a b).isTrue

def join (on : α → β → Truth) (l : List α) (r : List β) : List (α × β) :=
  l.flatMap fun a => (matching on r a).map fun b => (a, b)

/-- The rows that a left row contributes to a left outer join: its matches, or one row with NULL in
    every column of the right table. -/
def outerRows (on : α → β → Truth) (r : List β) (a : α) : List (α × Option β) :=
  match matching on r a with
  | [] => [(a, none)]
  | bs => bs.map fun b => (a, some b)

def leftOuterJoin (on : α → β → Truth) (l : List α) (r : List β) : List (α × Option β) :=
  l.flatMap (outerRows on r)

/-- All pairs of matching rows, and the rows of both tables without a match. -/
def fullOuterJoin (on : α → β → Truth) (l : List α) (r : List β) :
    List (Option α × Option β) :=
  (leftOuterJoin on l r).map (fun p => (some p.1, p.2)) ++
    (r.filter fun b => !l.any fun a => (on a b).isTrue).map fun b => (none, some b)

/-- A left row once, if it has a match. -/
def leftSemiJoin (on : α → β → Truth) (l : List α) (r : List β) : List α :=
  l.filter fun a => r.any fun b => (on a b).isTrue

theorem mem_join {on : α → β → Truth} {l : List α} {r : List β} {a : α} {b : β} :
    (a, b) ∈ join on l r ↔ a ∈ l ∧ b ∈ r ∧ (on a b).isTrue = true := by
  simp [join, matching]

theorem filterWhere_isNull_outerRows {on : α → β → Truth} {col : β → Option γ}
    (hcol : ∀ a b, (on a b).isTrue = true → (col b).isSome = true) (r : List β) (a : α) :
    filterWhere (fun p => isNull (p.2.bind col)) (outerRows on r a)
      = if r.any fun b => (on a b).isTrue then [] else [(a, none)] := by
  unfold outerRows
  split
  · rename_i h
    have hany : (r.any fun b => (on a b).isTrue) = false := by
      simpa [matching] using h
    rw [if_neg (by simp [hany])]
    simp [filterWhere]
  · rename_i h
    have hany : (r.any fun b => (on a b).isTrue) = true := by
      by_contra hnot
      exact h (by simpa [matching] using hnot)
    rw [if_pos hany, filterWhere, List.filter_eq_nil_iff]
    intro p hp
    obtain ⟨b, hb, rfl⟩ := List.mem_map.1 hp
    have := hcol a b (List.mem_filter.1 hb).2
    simpa [← Option.isSome_iff_ne_none] using this

/-- The anti-join: testing a column of the right table for NULL after a left outer join keeps the
    left rows without a match, if the column is not NULL in a matching row. -/
theorem filterWhere_isNull_leftOuterJoin {on : α → β → Truth} {col : β → Option γ}
    (hcol : ∀ a b, (on a b).isTrue = true → (col b).isSome = true) (l : List α) (r : List β) :
    filterWhere (fun p => isNull (p.2.bind col)) (leftOuterJoin on l r)
      = (l.filter fun a => !r.any fun b => (on a b).isTrue).map fun a => (a, none) := by
  have hrow := filterWhere_isNull_outerRows hcol r
  unfold filterWhere at hrow ⊢
  induction l with
  | nil => rfl
  | cons a l ih =>
    rw [leftOuterJoin, List.flatMap_cons, List.filter_append, hrow a]
    rw [leftOuterJoin] at ih
    rw [ih]
    by_cases hany : (r.any fun b => (on a b).isTrue) = true
    · rw [if_pos hany, List.filter_cons_of_neg (by simp [hany]), List.nil_append]
    · rw [if_neg hany, List.filter_cons_of_pos (by simpa using hany), List.map_cons,
        List.singleton_append]

theorem fst_mem_of_mem_leftOuterJoin {on : α → β → Truth} {l : List α} {r : List β}
    {p : α × Option β} (h : p ∈ leftOuterJoin on l r) : p.1 ∈ l := by
  obtain ⟨a, ha, hp⟩ := List.mem_flatMap.1 h
  unfold outerRows at hp
  split at hp
  · rw [List.mem_singleton.1 hp]
    exact ha
  · obtain ⟨b, _, rfl⟩ := List.mem_map.1 hp
    exact ha

/-- Testing a column of each table for NULL after a full outer join keeps the rows without a match,
    if neither column is NULL in the rows of its table. -/
theorem filterWhere_isNull_fullOuterJoin {on : α → β → Truth} {col : α → Option γ}
    {col' : β → Option γ} {l : List α} {r : List β} (hcol : ∀ a ∈ l, (col a).isSome = true)
    (hcol' : ∀ a b, (on a b).isTrue = true → (col' b).isSome = true) :
    filterWhere (fun p => (isNull (p.1.bind col)).or (isNull (p.2.bind col')))
        (fullOuterJoin on l r)
      = (l.filter fun a => !r.any fun b => (on a b).isTrue).map (fun a => (some a, none)) ++
        (r.filter fun b => !l.any fun a => (on a b).isTrue).map fun b => (none, some b) := by
  have hleft : (leftOuterJoin on l r).filter (fun p =>
      ((isNull (col p.1)).or (isNull (p.2.bind col'))).isTrue)
      = filterWhere (fun p => isNull (p.2.bind col')) (leftOuterJoin on l r) := by
    refine List.filter_congr fun p hp => ?_
    have hsome := hcol p.1 (fst_mem_of_mem_leftOuterJoin hp)
    rw [isTrue_or, isTrue_isNull, Option.isNone_eq_false_iff.2 hsome, Bool.false_or]
  have hright : ∀ rows : List β, (rows.map fun b => ((none : Option α), some b)).filter
      (fun p => ((isNull (p.1.bind col)).or (isNull (p.2.bind col'))).isTrue)
      = rows.map fun b => (none, some b) := by
    intro rows
    refine List.filter_eq_self.2 fun p hp => ?_
    obtain ⟨b, _, rfl⟩ := List.mem_map.1 hp
    rw [isTrue_or, isTrue_isNull]
    rfl
  unfold filterWhere fullOuterJoin
  rw [List.filter_append, hright, List.filter_map]
  show ((leftOuterJoin on l r).filter fun p =>
      ((isNull (col p.1)).or (isNull (p.2.bind col'))).isTrue).map _ ++ _ = _
  rw [hleft, filterWhere_isNull_leftOuterJoin hcol', List.map_map]
  rfl

/-! ## Lateral views -/

/-- `SPLIT(s, sep)` for a pattern of one plain character: all pieces, and NULL of NULL. -/
def split (sep : Char) (s : Option (List Char)) : Option (List (List Char)) :=
  s.map fun s => s.splitOnP (· == sep)

/-- `LATERAL VIEW explode(array)`: each row with each element of its array, and no row for NULL. -/
def lateralView (array : α → Option (List β)) (rows : List α) : List (α × β) :=
  rows.flatMap fun row => ((array row).getD []).map fun b => (row, b)

theorem length_flatMap_le_of_prefix {f g : α → List β} {rows : List α}
    (hinitial : ∀ row ∈ rows, f row <+: g row) :
    (rows.flatMap f).length ≤ (rows.flatMap g).length := by
  induction rows with
  | nil => simp
  | cons row rows ih =>
    have hrow := (hinitial row (List.mem_cons_self ..)).length_le
    have hrest := ih fun row' h' => hinitial row' (List.mem_cons_of_mem _ h')
    rw [List.flatMap_cons, List.flatMap_cons, List.length_append, List.length_append]
    omega

/-- Two ways to expand rows, the first giving of every row the first part of what the second
    gives, give the same together only if they do for every row. -/
theorem flatMap_perm_iff_of_prefix {f g : α → List β} {rows : List α}
    (hinitial : ∀ row ∈ rows, f row <+: g row) :
    (rows.flatMap f).Perm (rows.flatMap g) ↔ ∀ row ∈ rows, f row = g row := by
  refine ⟨fun hperm => ?_, fun h => List.Perm.of_eq (List.flatMap_congr h)⟩
  have hlength := hperm.length_eq
  clear hperm
  induction rows with
  | nil => simp
  | cons row rows ih =>
    have hrow := hinitial row (List.mem_cons_self ..)
    have hrest : ∀ row' ∈ rows, f row' <+: g row' := fun row' h' =>
      hinitial row' (List.mem_cons_of_mem _ h')
    -- neither part is longer, so both are equally long
    have hlerow := hrow.length_le
    have hlerest := length_flatMap_le_of_prefix hrest
    rw [List.flatMap_cons, List.flatMap_cons, List.length_append, List.length_append] at hlength
    intro row' h'
    rcases List.mem_cons.1 h' with rfl | h'
    · exact hrow.eq_of_length (by omega)
    · exact ih hrest (by omega) row' h'

/-! ## Grouping -/

/-- `SELECT a, count(1) .. GROUP BY a`: one row for each distinct value, with its multiplicity. -/
def groupCount [DecidableEq α] (rows : List α) : List (α × ℕ) :=
  rows.dedup.map fun a => (a, rows.count a)

theorem mem_groupCount [DecidableEq α] {rows : List α} {a : α} {n : ℕ} :
    (a, n) ∈ groupCount rows ↔ a ∈ rows ∧ n = rows.count a := by
  simp only [groupCount, List.mem_map, List.mem_dedup, Prod.mk.injEq]
  constructor
  · rintro ⟨_, ha, rfl, rfl⟩
    exact ⟨ha, rfl⟩
  · rintro ⟨ha, rfl⟩
    exact ⟨a, ha, rfl, rfl⟩

theorem nodup_keys_groupCount [DecidableEq α] (rows : List α) :
    ((groupCount rows).map Prod.fst).Nodup := by
  rw [groupCount, List.map_map]
  exact (List.map_id _).symm ▸ List.nodup_dedup rows

/-! ## DISTINCT and ORDER BY -/

/-- `SELECT DISTINCT`, and `GROUP BY` on all selected columns: one row for each distinct row, in
    any order. NULLs are equal here. -/
structure Distinct (rows result : List α) : Prop where
  nodup : result.Nodup
  mem_iff : ∀ a, a ∈ result ↔ a ∈ rows

theorem distinct_dedup [DecidableEq α] (rows : List α) : Distinct rows rows.dedup :=
  ⟨List.nodup_dedup rows, fun _ => List.mem_dedup⟩

theorem Distinct.perm {rows result result' : List α} (h : Distinct rows result)
    (h' : Distinct rows result') : result.Perm result' :=
  (List.perm_ext_iff_of_nodup h.nodup h'.nodup).2 fun a => (h.mem_iff a).trans (h'.mem_iff a).symm

/-- Distinct rows stay distinct when columns are added that keep them apart. -/
theorem Distinct.map {f : α → β} (hf : Function.Injective f) {rows result : List α}
    (h : Distinct rows result) : Distinct (rows.map f) (result.map f) := by
  refine ⟨h.nodup.map hf, ?_⟩
  intro b
  simp only [List.mem_map, h.mem_iff]

/-- `ORDER BY`: the same rows, sorted by a key; rows that tie come in any order. -/
structure OrderedBy [LinearOrder γ] (key : α → γ) (rows result : List α) : Prop where
  perm : result.Perm rows
  sorted : result.Pairwise fun a b => key a ≤ key b

theorem orderedBy_sortBy [LinearOrder γ] (key : α → γ) (rows : List α) :
    OrderedBy key rows (KeySort.sortBy key rows) :=
  ⟨KeySort.sortBy_perm key rows, KeySort.pairwise_sortBy key rows⟩

/-- Columns that do not change the key can be added after the sort. -/
theorem OrderedBy.map [LinearOrder γ] {key : α → γ} {key' : β → γ} {f : α → β}
    (hkey : ∀ a, key' (f a) = key a) {rows result : List α} (h : OrderedBy key rows result) :
    OrderedBy key' (rows.map f) (result.map f) := by
  refine ⟨h.perm.map f, List.pairwise_map.2 ?_⟩
  simp only [hkey]
  exact h.sorted

/-- A key without ties fixes the order. -/
theorem OrderedBy.unique [LinearOrder γ] {key : α → γ} {rows rows' result result' : List α}
    (hkey : ∀ a ∈ rows, ∀ b ∈ rows, key a = key b → a = b) (h : OrderedBy key rows result)
    (h' : OrderedBy key rows' result') (hperm : rows.Perm rows') : result = result' := by
  refine List.Perm.eq_of_pairwise ?_ h.sorted h'.sorted (h.perm.trans (hperm.trans h'.perm.symm))
  intro a b ha hb hab hba
  have hb' : b ∈ rows := hperm.symm.subset (h'.perm.subset hb)
  exact hkey a (h.perm.subset ha) b hb' (le_antisymm hab hba)

end Sql
