import HadoopExamples.Platform.Java
import HadoopExamples.Platform.Scala
import HadoopExamples.Platform.Spark

set_option autoImplicit false

/-! # Words by their first letter

`wordlength_with_details.scala` counts words by their first letter and lists the different words of
each letter. It splits lines at single blanks, which may give empty pieces, and an empty piece has
no first letter: `covers_iff` says for which files the job finishes. -/

namespace HadoopExamples.WordlengthWithDetails

open Scala

/-! ## The script -/

def words (lines : List ScalaString) : List ScalaString := lines.flatMap splitBlank

def first_letter_and_word (lines : List ScalaString) :
    Except ScalaException (List (ScalaString × ScalaString)) :=
  (words lines).mapM fun word => do return (← substring word 0 1, word)

/-- One way to run the job on the pairs: what the shuffles make of them. -/
structure Run (pairs : List (ScalaString × ScalaString)) where
  first_letter_counts : List (ScalaString × JavaInt)
  different : List (ScalaString × ScalaString)
  grouped : List (ScalaString × List ScalaString)
  counts_with_words : List (ScalaString × JavaInt × ScalaString)
  reduceByKey : Spark.ReduceByKey (· + ·)
    (pairs.map fun (first_letter, _) => (first_letter, 1)) first_letter_counts
  distinct : Spark.Distinct pairs different
  groupByKey : Spark.GroupByKey different grouped
  join : Spark.Join first_letter_counts
    (grouped.map fun (first_letter, words) => (first_letter, mkStringComma words))
    counts_with_words

/-! ## The report -/

/-- The words of the lines: what stands between blanks, unless it is empty. -/
def properWords (lines : List ScalaString) : List ScalaString :=
  lines.flatMap fun line => (line.splitOnP (· == 0x20)).filter fun word => !word.isEmpty

/-- One record for each character that a word begins with: the number of these words, as a Java
    `int`, and a list of the different ones. -/
structure IsReport (lines : List ScalaString) (records : List (ScalaString × JavaInt × ScalaString)) :
    Prop where
  once : (records.map Prod.fst).Nodup
  mem_iff : ∀ key, key ∈ records.map Prod.fst ↔
    ∃ c, key = [c] ∧ ∃ word ∈ properWords lines, word.head? = some c
  count : ∀ c n list, ([c], n, list) ∈ records →
    n = BitVec.ofNat 32 ((properWords lines).countP fun word => word.head? = some c)
  list : ∀ c n list, ([c], n, list) ∈ records → ∃ words : List ScalaString, words.Nodup ∧
    (∀ word, word ∈ words ↔ word ∈ properWords lines ∧ word.head? = some c) ∧
    list = mkStringComma words

/-- The job finishes, with the report, however its shuffles go. -/
def Covers (lines : List ScalaString) : Prop :=
  ∃ pairs, first_letter_and_word lines = .ok pairs ∧ Nonempty (Run pairs) ∧
    ∀ run : Run pairs, IsReport lines run.counts_with_words

/-! ## When the job finishes -/

theorem substring_ne_nil {word : ScalaString} (h : word ≠ []) :
    substring word 0 1 = .ok (word.take 1) := by
  unfold substring
  rw [if_pos ⟨Nat.zero_le _, List.length_pos_iff.2 h⟩]
  rfl

theorem nil_notMem_words_iff {lines : List ScalaString} :
    [] ∉ words lines ↔ ∀ line ∈ lines, line ≠ [] ∧ Split.WellSpaced (· == 0x20) line := by
  unfold words
  simp only [List.mem_flatMap, not_exists, not_and]
  exact forall₂_congr fun line _ => Split.nil_notMem_dropTrailing_splitOnP line

theorem first_letter_and_word_ok {lines : List ScalaString} (h : [] ∉ words lines) :
    first_letter_and_word lines = .ok ((words lines).map fun word => (word.take 1, word)) := by
  refine Spark.mapM_ok fun word hword => ?_
  have hne : word ≠ [] := fun hnil => h (hnil ▸ hword)
  rw [substring_ne_nil hne]
  rfl

theorem nil_notMem_words_of_ok {lines : List ScalaString}
    {pairs : List (ScalaString × ScalaString)} (h : first_letter_and_word lines = .ok pairs) :
    [] ∉ words lines := by
  intro hnil
  obtain ⟨pair, hpair⟩ := Spark.exists_of_mapM_ok h [] hnil
  cases hpair

/-- Without empty pieces, the pieces are the words. -/
theorem words_eq {lines : List ScalaString} (h : [] ∉ words lines) :
    words lines = properWords lines := by
  refine List.flatMap_congr fun line hline => ?_
  unfold splitBlank
  rw [← Split.filter_dropTrailing, List.filter_eq_self.2]
  intro word hword
  have hne : word ≠ [] := fun hnil => h (List.mem_flatMap.2 ⟨line, hline, hnil ▸ hword⟩)
  simpa using hne

theorem ne_nil_of_mem_properWords {lines : List ScalaString} {word : ScalaString}
    (h : word ∈ properWords lines) : word ≠ [] := by
  obtain ⟨line, _, hword⟩ := List.mem_flatMap.1 h
  simpa using (List.mem_filter.1 hword).2

theorem take_one_eq_iff {word : ScalaString} {c : UInt16} :
    word.take 1 = [c] ↔ word.head? = some c := by
  cases word with
  | nil => simp
  | cons c' word => simp

/-! ## What the shuffles make of the words -/

section Shuffles

variable {ws : List ScalaString}

theorem ones_eq (pairs : List (ScalaString × ScalaString)) :
    (pairs.map fun (first_letter, _) => (first_letter, (1 : JavaInt)))
      = (pairs.map Prod.fst).map fun first_letter => (first_letter, 1) := by
  rw [List.map_map]
  rfl

/-- The run that keeps the order of the words. -/
theorem nonempty_run (pairs : List (ScalaString × ScalaString)) : Nonempty (Run pairs) :=
  ⟨⟨_, pairs.dedup, _, _, ones_eq pairs ▸ Spark.reduceByKey_ones _,
    ⟨List.nodup_dedup _, fun _ => List.mem_dedup⟩, MapReduce.grouping_groupsInOrder _,
    List.Perm.refl _⟩⟩

variable (run : Run (ws.map fun word => (word.take 1, word))) {key : ScalaString}

theorem Run.mem_counts :
    key ∈ run.first_letter_counts.map Prod.fst ↔ ∃ word ∈ ws, word.take 1 = key := by
  rw [run.reduceByKey.mem_keys, List.map_map, List.map_map, List.mem_map]
  rfl

theorem Run.count_eq {n : JavaInt} (h : (key, n) ∈ run.first_letter_counts) :
    n = BitVec.ofNat 32 (ws.countP fun word => word.take 1 = key) := by
  have hones := run.reduceByKey
  rw [ones_eq] at hones
  rw [hones.eq_count h, List.map_map, List.countP_map]
  rfl

theorem Run.mem_grouped :
    key ∈ run.grouped.map Prod.fst ↔ ∃ word ∈ ws, word.take 1 = key := by
  rw [run.groupByKey.mem_keys]
  simp only [run.distinct.mem_iff, List.mem_map, Prod.mk.injEq]
  constructor
  · rintro ⟨_, word, hword, hkey, rfl⟩
    exact ⟨word, hword, hkey⟩
  · rintro ⟨word, hword, hkey⟩
    exact ⟨word, word, hword, hkey, rfl⟩

/-- A list of words has every word of its letter once. -/
theorem Run.grouped_words {list : List ScalaString} (h : (key, list) ∈ run.grouped) :
    list.Nodup ∧ ∀ word, word ∈ list ↔ word ∈ ws ∧ word.take 1 = key := by
  have hperm := run.groupByKey.values_perm h
  refine ⟨hperm.nodup_iff.2 (MapReduce.nodup_valuesOf run.distinct.nodup key), fun word => ?_⟩
  rw [hperm.mem_iff, MapReduce.mem_valuesOf, run.distinct.mem_iff, List.mem_map]
  simp only [Prod.mk.injEq]
  constructor
  · rintro ⟨_, hword, hkey, rfl⟩
    exact ⟨hword, hkey⟩
  · rintro ⟨hword, hkey⟩
    exact ⟨word, hword, hkey, rfl⟩

theorem Run.mem_records {n : JavaInt} {joined : ScalaString} :
    (key, n, joined) ∈ run.counts_with_words ↔ (key, n) ∈ run.first_letter_counts ∧
      ∃ list, (key, list) ∈ run.grouped ∧ joined = mkStringComma list := by
  rw [run.join.mem_iff, List.mem_map]
  refine and_congr_right fun _ => ⟨?_, ?_⟩
  · rintro ⟨⟨_, list⟩, hlist, heq⟩
    obtain ⟨rfl, rfl⟩ := Prod.mk.inj heq
    exact ⟨list, hlist, rfl⟩
  · rintro ⟨list, hlist, rfl⟩
    exact ⟨_, hlist, rfl⟩

end Shuffles

theorem Run.isReport {lines : List ScalaString}
    (run : Run ((properWords lines).map fun word => (word.take 1, word))) :
    IsReport lines run.counts_with_words := by
  refine ⟨?_, ?_, ?_, ?_⟩
  · refine run.join.nodup_keys run.reduceByKey.nodup ?_
    rw [List.map_map]
    exact run.groupByKey.keys_nodup
  · intro key
    have hletter : (∃ c, key = [c] ∧ ∃ word ∈ properWords lines, word.head? = some c) ↔
        ∃ word ∈ properWords lines, word.take 1 = key := by
      constructor
      · rintro ⟨c, rfl, word, hword, hhead⟩
        exact ⟨word, hword, take_one_eq_iff.2 hhead⟩
      · rintro ⟨word, hword, rfl⟩
        obtain ⟨c, word, rfl⟩ := List.exists_cons_of_ne_nil (ne_nil_of_mem_properWords hword)
        exact ⟨c, rfl, _, hword, rfl⟩
    rw [hletter]
    constructor
    · intro hkey
      obtain ⟨⟨_, n, joined⟩, hrecord, rfl⟩ := List.mem_map.1 hkey
      exact run.mem_counts.1 (List.mem_map_of_mem (run.mem_records.1 hrecord).1)
    · intro hword
      obtain ⟨⟨_, n⟩, hn, rfl⟩ := List.mem_map.1 (run.mem_counts.2 hword)
      obtain ⟨⟨_, list⟩, hlist, rfl⟩ := List.mem_map.1 (run.mem_grouped.2 hword)
      exact List.mem_map.2 ⟨_, run.mem_records.2 ⟨hn, list, hlist, rfl⟩, rfl⟩
  · intro c n joined h
    rw [run.count_eq (run.mem_records.1 h).1]
    simp only [take_one_eq_iff]
  · intro c n joined h
    obtain ⟨_, list, hlist, hjoined⟩ := run.mem_records.1 h
    obtain ⟨hnodup, hmem⟩ := run.grouped_words hlist
    exact ⟨list, hnodup, fun word => (hmem word).trans (and_congr_right fun _ => take_one_eq_iff),
      hjoined⟩

/-- The job finishes, and its records are the report, exactly if no line is empty and in every line
    a blank with some other character behind it stands right behind such a character. -/
theorem covers_iff (lines : List ScalaString) :
    Covers lines ↔ ∀ line ∈ lines, line ≠ [] ∧ Split.WellSpaced (· == 0x20) line := by
  rw [← nil_notMem_words_iff]
  constructor
  · rintro ⟨pairs, hpairs, _⟩
    exact nil_notMem_words_of_ok hpairs
  · intro h
    refine ⟨_, first_letter_and_word_ok h, nonempty_run _, ?_⟩
    rw [words_eq h]
    exact Run.isReport

/-- A blank line, and a line with a blank in front. -/
theorem first_letter_and_word_fails :
    first_letter_and_word [literal "other otto".toList, []] = .error .stringIndexOutOfBounds ∧
    first_letter_and_word [literal " otto".toList] = .error .stringIndexOutOfBounds ∧
    ¬ Covers [literal "other otto".toList, []] ∧ ¬ Covers [literal " otto".toList] := by
  have hblank : first_letter_and_word [literal "other otto".toList, []]
      = .error .stringIndexOutOfBounds := by
    decide +kernel
  have hfront : first_letter_and_word [literal " otto".toList]
      = .error .stringIndexOutOfBounds := by
    decide +kernel
  refine ⟨hblank, hfront, ?_, ?_⟩
  · rintro ⟨pairs, hpairs, _⟩
    rw [hblank] at hpairs
    cases hpairs
  · rintro ⟨pairs, hpairs, _⟩
    rw [hfront] at hpairs
    cases hpairs

end HadoopExamples.WordlengthWithDetails
