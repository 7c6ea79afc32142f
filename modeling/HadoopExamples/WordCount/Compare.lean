import HadoopExamples.Library.Sql

set_option autoImplicit false

/-! # Comparing word counts

`compare.hql` compares the word counts of Hive with those of MapReduce: it joins the two tables on
the word and keeps the rows in which one of the words is missing. It shows both counts, but never
compares them: `compare_differences_iff` says when it finds every difference. -/

namespace HadoopExamples.CompareWordCounts

/-! ## The query -/

/-- A row of `wordcount` or `mr_wordcount`. -/
structure WordCount where
  word : Option String
  count : Option ℤ
deriving DecidableEq

/-- A row of the result. -/
structure Comparison where
  word : Option String
  hive_count : Option ℤ
  mr_count : Option ℤ
deriving DecidableEq

/-- `FULL OUTER JOIN mr_wordcount on (mr_wordcount.word = wordcount.word)` -/
def joined (wordcount mr_wordcount : List WordCount) : List (Option WordCount × Option WordCount) :=
  Sql.fullOuterJoin (fun hive mr => Sql.eq mr.word hive.word) wordcount mr_wordcount

/-- `WHERE wordcount.word IS NULL or mr_wordcount.word IS NULL` -/
def kept (wordcount mr_wordcount : List WordCount) : List (Option WordCount × Option WordCount) :=
  Sql.filterWhere (fun row =>
    (Sql.isNull (row.1.bind WordCount.word)).or (Sql.isNull (row.2.bind WordCount.word)))
    (joined wordcount mr_wordcount)

/-- `SELECT wordcount.word, wordcount.count AS hive_count, mr_wordcount.count AS mr_count` -/
def select (row : Option WordCount × Option WordCount) : Comparison :=
  ⟨row.1.bind WordCount.word, row.1.bind WordCount.count, row.2.bind WordCount.count⟩

def compare (wordcount mr_wordcount : List WordCount) : List Comparison :=
  (kept wordcount mr_wordcount).map select

/-! ## What is to be found -/

/-- The words are not NULL, and no word has two rows. -/
structure WellFormed (table : List WordCount) : Prop where
  word : ∀ row ∈ table, row.word.isSome = true
  once : (table.map WordCount.word).Nodup

/-- The word is in the first table only. -/
def OnlyIn (table other : List WordCount) (w : String) : Prop :=
  some w ∈ table.map WordCount.word ∧ some w ∉ other.map WordCount.word

instance (table other : List WordCount) (w : String) : Decidable (OnlyIn table other w) :=
  inferInstanceAs (Decidable (_ ∧ _))

/-- The word is in both tables, with different counts. -/
def CountsDiffer (wordcount mr_wordcount : List WordCount) (w : String) : Prop :=
  ∃ n n', ⟨some w, n⟩ ∈ wordcount ∧ ⟨some w, n'⟩ ∈ mr_wordcount ∧ n ≠ n'

def Disagree (wordcount mr_wordcount : List WordCount) (w : String) : Prop :=
  OnlyIn wordcount mr_wordcount w ∨ OnlyIn mr_wordcount wordcount w ∨
    CountsDiffer wordcount mr_wordcount w

/-- The joined row comes from a row of the word. -/
def isFor (w : String) (row : Option WordCount × Option WordCount) : Bool :=
  row.1.bind WordCount.word = some w || row.2.bind WordCount.word = some w

/-- The query returns one row for each word on which the tables disagree and no other row for any
    word, so no rows exactly for tables with the same rows. -/
structure FindsDifferences (wordcount mr_wordcount : List WordCount) : Prop where
  disagree : ∀ w, Disagree wordcount mr_wordcount w →
    (kept wordcount mr_wordcount).countP (isFor w) = 1
  agree : ∀ w, ¬ Disagree wordcount mr_wordcount w →
    (kept wordcount mr_wordcount).countP (isFor w) = 0
  same : compare wordcount mr_wordcount = [] ↔ ∀ row, row ∈ wordcount ↔ row ∈ mr_wordcount

/-- Besides, the row for a word has the word in its first column. -/
structure NamesDifferences (wordcount mr_wordcount : List WordCount) : Prop where
  disagree : ∀ w, Disagree wordcount mr_wordcount w →
    (compare wordcount mr_wordcount).countP (fun row => row.word = some w) = 1
  agree : ∀ w, ¬ Disagree wordcount mr_wordcount w →
    (compare wordcount mr_wordcount).countP (fun row => row.word = some w) = 0

/-! ## What is kept -/

section Kept

variable {wordcount mr_wordcount : List WordCount}

/-- The rows of a table whose word is not in the other one. -/
def only (table other : List WordCount) : List WordCount :=
  table.filter fun row => row.word ∉ other.map WordCount.word

theorem kept_eq (hhive : WellFormed wordcount) :
    kept wordcount mr_wordcount
      = (only wordcount mr_wordcount).map (fun row => (some row, none)) ++
        (only mr_wordcount wordcount).map fun row => (none, some row) := by
  have hmatch : ∀ {hive mr : WordCount}, hive ∈ wordcount →
      ((Sql.eq mr.word hive.word).isTrue = true ↔ mr.word = hive.word) := by
    intro hive mr hmem
    rw [Sql.isTrue_eq]
    have := hhive.word hive hmem
    refine ⟨fun h => ?_, fun h => ?_⟩
    · simpa using (Bool.and_eq_true_iff.1 h).2
    · rw [h, this]
      simp
  unfold kept joined
  rw [Sql.filterWhere_isNull_fullOuterJoin hhive.word]
  · have honly : (wordcount.filter fun hive =>
        !mr_wordcount.any fun mr => (Sql.eq mr.word hive.word).isTrue)
        = only wordcount mr_wordcount := by
      refine List.filter_congr fun hive hmem => Bool.eq_iff_iff.2 ?_
      simp only [Bool.not_eq_true', List.any_eq_false, decide_eq_true_eq, List.mem_map, not_exists,
        not_and]
      exact forall₂_congr fun mr _ => not_congr (hmatch hmem)
    have honly' : (mr_wordcount.filter fun mr =>
        !wordcount.any fun hive => (Sql.eq mr.word hive.word).isTrue)
        = only mr_wordcount wordcount := by
      refine List.filter_congr fun mr _ => Bool.eq_iff_iff.2 ?_
      simp only [Bool.not_eq_true', List.any_eq_false, decide_eq_true_eq, List.mem_map, not_exists,
        not_and]
      exact forall₂_congr fun hive hmem => not_congr ((hmatch hmem).trans eq_comm)
    rw [honly, honly']
  · intro hive mr h
    rw [Sql.isTrue_eq, Bool.and_eq_true_iff] at h
    exact h.1

theorem countP_only {table other : List WordCount} (htable : WellFormed table) (w : String) :
    ((only table other).countP fun row => row.word = some w)
      = if OnlyIn table other w then 1 else 0 := by
  have hwords : (table.countP fun row => row.word = some w)
      = (table.map WordCount.word).count (some w) := by
    rw [List.count_eq_countP, List.countP_map]
    exact List.countP_congr fun row _ => by simp
  unfold only
  rw [List.countP_filter]
  by_cases hother : some w ∈ other.map WordCount.word
  · rw [if_neg fun h => h.2 hother, List.countP_eq_zero]
    intro row _
    simp only [Bool.and_eq_true, decide_eq_true_eq, not_and, not_not]
    intro hw
    rwa [hw]
  · have hpick : (table.countP fun row =>
        decide (row.word = some w) && decide (row.word ∉ other.map WordCount.word))
        = table.countP fun row => row.word = some w := by
      refine List.countP_congr fun row _ => ?_
      simp only [Bool.and_eq_true, decide_eq_true_eq, and_iff_left_iff_imp]
      intro hw
      rwa [hw]
    rw [hpick, hwords, htable.once.count]
    exact if_congr (and_iff_left hother).symm rfl rfl

theorem countP_isFor (hhive : WellFormed wordcount) (hmr : WellFormed mr_wordcount) (w : String) :
    (kept wordcount mr_wordcount).countP (isFor w)
      = (if OnlyIn wordcount mr_wordcount w then 1 else 0) +
        if OnlyIn mr_wordcount wordcount w then 1 else 0 := by
  rw [kept_eq hhive, List.countP_append, List.countP_map, List.countP_map,
    ← countP_only hhive, ← countP_only hmr]
  refine congrArg₂ (· + ·) (List.countP_congr fun row _ => ?_) (List.countP_congr fun row _ => ?_)
  · simp [isFor]
  · simp [isFor]

variable (mr_wordcount) in
theorem countP_named (hhive : WellFormed wordcount) (w : String) :
    ((compare wordcount mr_wordcount).countP fun row => row.word = some w)
      = if OnlyIn wordcount mr_wordcount w then 1 else 0 := by
  unfold compare
  rw [List.countP_map, kept_eq hhive, List.countP_append, List.countP_map, List.countP_map,
    ← countP_only hhive]
  have hnone : ∀ row : WordCount, (select (none, some row)).word = none := fun _ => rfl
  rw [Nat.add_eq_left.2]
  · rfl
  · refine List.countP_eq_zero.2 fun row _ => ?_
    simp [hnone]

theorem compare_eq_nil_iff (hhive : WellFormed wordcount) :
    compare wordcount mr_wordcount = [] ↔
      (∀ row ∈ wordcount, row.word ∈ mr_wordcount.map WordCount.word) ∧
      ∀ row ∈ mr_wordcount, row.word ∈ wordcount.map WordCount.word := by
  unfold compare
  rw [List.map_eq_nil_iff, kept_eq hhive, List.append_eq_nil_iff, List.map_eq_nil_iff,
    List.map_eq_nil_iff]
  unfold only
  simp only [List.filter_eq_nil_iff, decide_eq_true_eq, not_not]

/-- A row whose word is in the other table is in it, if no counts differ. -/
theorem mem_other {table other : List WordCount} (htable : WellFormed table)
    (hsame : ∀ w, ¬ CountsDiffer table other w) {row : WordCount} (hrow : row ∈ table)
    (hword : row.word ∈ other.map WordCount.word) : row ∈ other := by
  obtain ⟨row', hrow', heq⟩ := List.mem_map.1 hword
  obtain ⟨w, hw⟩ := Option.isSome_iff_exists.1 (htable.word row hrow)
  obtain ⟨word, count⟩ := row
  obtain ⟨word', count'⟩ := row'
  simp only at heq hw
  subst heq hw
  by_contra hnot
  refine hsame w ⟨count, count', hrow, hrow', fun hcount => ?_⟩
  exact hnot (hcount ▸ hrow')

end Kept

section Differences

variable {wordcount mr_wordcount : List WordCount}

theorem CountsDiffer.symm {w : String} (h : CountsDiffer wordcount mr_wordcount w) :
    CountsDiffer mr_wordcount wordcount w := by
  obtain ⟨n, n', hn, hn', hne⟩ := h
  exact ⟨n', n, hn', hn, hne.symm⟩

theorem CountsDiffer.not_onlyIn {w : String} (h : CountsDiffer wordcount mr_wordcount w) :
    ¬ OnlyIn wordcount mr_wordcount w := by
  obtain ⟨_, _, _, hn', _⟩ := h
  exact fun honly => honly.2 (List.mem_map_of_mem hn')

theorem findsDifferences_iff (hhive : WellFormed wordcount) (hmr : WellFormed mr_wordcount) :
    FindsDifferences wordcount mr_wordcount ↔ ∀ w, ¬ CountsDiffer wordcount mr_wordcount w := by
  have hrows := countP_isFor hhive hmr
  refine ⟨fun h w hdiffer => ?_, fun hsame => ⟨fun w hw => ?_, fun w hw => ?_, ?_⟩⟩
  · have hone := h.disagree w (Or.inr (Or.inr hdiffer))
    rw [hrows, if_neg hdiffer.not_onlyIn, if_neg hdiffer.symm.not_onlyIn] at hone
    cases hone
  · rw [hrows]
    rcases hw with hhere | hthere | hdiffer
    · rw [if_pos hhere, if_neg fun hthere => hhere.2 hthere.1]
    · rw [if_pos hthere, if_neg fun hhere => hthere.2 hhere.1]
    · exact absurd hdiffer (hsame w)
  · rw [hrows, if_neg fun hhere => hw (Or.inl hhere),
      if_neg fun hthere => hw (Or.inr (Or.inl hthere))]
  · rw [compare_eq_nil_iff hhive]
    refine ⟨fun h row => ⟨fun hrow => ?_, fun hrow => ?_⟩,
      fun h => ⟨fun row hrow => ?_, fun row hrow => ?_⟩⟩
    · exact mem_other hhive hsame hrow (h.1 row hrow)
    · exact mem_other hmr (fun w hdiffer => hsame w hdiffer.symm) hrow (h.2 row hrow)
    · exact List.mem_map_of_mem ((h row).1 hrow)
    · exact List.mem_map_of_mem ((h row).2 hrow)

theorem namesDifferences_iff (hhive : WellFormed wordcount) :
    NamesDifferences wordcount mr_wordcount ↔ ∀ w, ¬ CountsDiffer wordcount mr_wordcount w ∧
      ¬ OnlyIn mr_wordcount wordcount w := by
  have hrows := countP_named mr_wordcount hhive
  refine ⟨fun h w => ⟨fun hdiffer => ?_, fun hthere => ?_⟩,
    fun hsame => ⟨fun w hw => ?_, fun w hw => ?_⟩⟩
  · have hone := h.disagree w (Or.inr (Or.inr hdiffer))
    rw [hrows, if_neg hdiffer.not_onlyIn] at hone
    cases hone
  · have hone := h.disagree w (Or.inr (Or.inl hthere))
    rw [hrows, if_neg fun hhere => hthere.2 hhere.1] at hone
    cases hone
  · rw [hrows]
    rcases hw with hhere | hthere | hdiffer
    · rw [if_pos hhere]
    · exact absurd hthere (hsame w).2
    · exact absurd hdiffer (hsame w).1
  · rw [hrows, if_neg fun hhere => hw (Or.inl hhere)]

end Differences

/-- The query finds every difference exactly if no word has different counts in the two tables; and
    the rows it returns name their words exactly if, besides, no word is in `mr_wordcount` only. -/
theorem compare_differences_iff (wordcount mr_wordcount : List WordCount)
    (hhive : WellFormed wordcount) (hmr : WellFormed mr_wordcount) :
    (FindsDifferences wordcount mr_wordcount ↔ ∀ w, ¬ CountsDiffer wordcount mr_wordcount w) ∧
    (NamesDifferences wordcount mr_wordcount ↔ ∀ w, ¬ CountsDiffer wordcount mr_wordcount w ∧
      ¬ OnlyIn mr_wordcount wordcount w) :=
  ⟨findsDifferences_iff hhive hmr, namesDifferences_iff hhive⟩

/-- A word that only Hive has counted. -/
theorem compare_differences_iff_one : FindsDifferences
    [⟨some "to", some 2⟩, ⟨some "", some 1⟩] [⟨some "to", some 2⟩] ∧
    compare [⟨some "to", some 2⟩, ⟨some "", some 1⟩] [⟨some "to", some 2⟩]
      = [⟨some "", some 1, none⟩] := by
  refine ⟨(compare_differences_iff _ _ ⟨by decide, by decide⟩ ⟨by decide, by decide⟩).1.2 ?_,
    by decide⟩
  rintro w ⟨n, n', hn, hn', hne⟩
  obtain ⟨hw, rfl⟩ := WordCount.mk.inj (List.mem_singleton.1 hn')
  rw [hw] at hn
  rcases List.mem_cons.1 hn with heq | hmem
  · exact hne (WordCount.mk.inj heq).2
  · exact absurd (WordCount.mk.inj (List.mem_singleton.1 hmem)).1 (by decide)

/-- One word, counted differently: the query returns nothing. -/
theorem compare_misses_counts :
    WellFormed [⟨some "to", some 2⟩] ∧ WellFormed [⟨some "to", some 3⟩] ∧
    CountsDiffer [⟨some "to", some 2⟩] [⟨some "to", some 3⟩] "to" ∧
    compare [⟨some "to", some 2⟩] [⟨some "to", some 3⟩] = [] ∧
    ¬ FindsDifferences [⟨some "to", some 2⟩] [⟨some "to", some 3⟩] := by
  have hnone : compare [⟨some "to", some 2⟩] [⟨some "to", some 3⟩] = [] := by decide
  refine ⟨⟨by decide, by decide⟩, ⟨by decide, by decide⟩,
    ⟨some 2, some 3, by decide, by decide, by decide⟩, hnone, fun h => ?_⟩
  have hsame := (h.same.1 hnone ⟨some "to", some 2⟩).1 (by decide)
  exact absurd hsame (by decide)

end HadoopExamples.CompareWordCounts
