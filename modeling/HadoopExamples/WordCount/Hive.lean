import HadoopExamples.Library.Sql
import HadoopExamples.WordCount.MapReduce
import Mathlib.Algebra.Order.BigOperators.Group.List
import Mathlib.Algebra.Order.Ring.Nat

set_option autoImplicit false

/-! # The Hive word count

`wordcount.hql` lower-cases every line, splits it at `\W+` and counts the pieces. Hive's `split`
keeps empty pieces at both ends of a line and the query does not filter them, so the empty string
is counted as a word whenever a line does not start and end with a word character
(`nil_mem_words`). For the other lines the table is the word count of the lower-cased lines and
agrees with the MapReduce jobs. -/

namespace HadoopExamples

namespace HiveWordCount

/-! ## The code -/

/-- A row of `shakespeare`: one line of ASCII text, not NULL. -/
structure ShakespeareRow where
  line : JavaString
  ascii : ∀ c ∈ line, c.toNat < 128

theorem ascii_of_all {line : JavaString} (h : line.all (·.toNat < 128) = true) :
    ∀ c ∈ line, c.toNat < 128 :=
  fun c hc => of_decide_eq_true (List.all_eq_true.1 h c hc)

/-- `lcase`, on ASCII text. -/
def lcase (s : JavaString) : JavaString := s.map Char.toLower

/-- `SELECT explode(split(lcase(line), '\\W+')) AS word FROM shakespeare` -/
def words (shakespeare : List ShakespeareRow) : List Text :=
  shakespeare.flatMap fun row => (lcase row.line).splitNonWordAll.map Text.mk

/-- `SELECT word, count(1) AS count .. GROUP BY word ORDER BY word` -/
def wordcount (shakespeare : List ShakespeareRow) : List (Text × ℕ) :=
  (Sql.groupCount (words shakespeare)).insertionSort fun r r' => r.1 ≤ r'.1

/-! ## What the table should hold -/

/-- The class `[a-z0-9_]`. -/
def isLowerWordChar (c : Char) : Bool :=
  ('a' ≤ c && c ≤ 'z') || c == '_' || ('0' ≤ c && c ≤ '9')

/-- The number of places at which `w` is a maximal run of `[a-z0-9_]` in some lower-cased line. -/
def lowerOccurrences (shakespeare : List ShakespeareRow) (w : JavaString) : ℕ :=
  (shakespeare.map fun row => Split.runCount isLowerWordChar (lcase row.line) w).sum

/-- The rows are exactly the words of the lower-cased lines, each once with its count. -/
structure IsLowerWordCount (shakespeare : List ShakespeareRow) (rows : List (Text × ℕ)) :
    Prop where
  once : (rows.map Prod.fst).Nodup
  rows : ∀ w n, (⟨w⟩, n) ∈ rows ↔
    0 < lowerOccurrences shakespeare w ∧ n = lowerOccurrences shakespeare w

/-- The lower-cased lines, as input of a MapReduce job. -/
def loweredLines (shakespeare : List ShakespeareRow) : List Text :=
  shakespeare.map fun row => ⟨lcase row.line⟩

/-- The line starts and ends with a word character. -/
def WordBounded (line : JavaString) : Prop :=
  line.head?.any JavaString.isWordChar = true ∧ line.getLast?.any JavaString.isWordChar = true

instance (line : JavaString) : Decidable (WordBounded line) := inferInstanceAs (Decidable (_ ∧ _))

/-! ## Lower-casing ASCII text -/

theorem forall_ascii (p : Char → Prop) (h : ∀ n < 128, p (Char.ofNat n)) {c : Char}
    (hc : c.toNat < 128) : p c := by
  rw [← Char.ofNat_toNat c]
  exact h _ hc

theorem isWordChar_toLower {c : Char} (hc : c.toNat < 128) :
    JavaString.isWordChar c.toLower = JavaString.isWordChar c :=
  forall_ascii (fun c => JavaString.isWordChar c.toLower = JavaString.isWordChar c)
    (by decide) hc

theorem isLowerWordChar_toLower {c : Char} (hc : c.toNat < 128) :
    isLowerWordChar c.toLower = JavaString.isWordChar c.toLower :=
  forall_ascii (fun c => isLowerWordChar c.toLower = JavaString.isWordChar c.toLower)
    (by decide) hc

theorem any_isWordChar_map_toLower {o : Option Char} (ho : ∀ c, o = some c → c.toNat < 128) :
    (o.map Char.toLower).any JavaString.isWordChar = o.any JavaString.isWordChar := by
  cases o with
  | none => rfl
  | some c => exact isWordChar_toLower (ho c rfl)

/-- Lower-casing does not change whether a line starts and ends with a word character. -/
theorem wordBounded_lcase (row : ShakespeareRow) :
    WordBounded (lcase row.line) ↔ WordBounded row.line := by
  rw [WordBounded, WordBounded, lcase, List.head?_map, List.getLast?_map,
    any_isWordChar_map_toLower fun c hc => row.ascii c (List.mem_of_head? hc),
    any_isWordChar_map_toLower fun c hc => row.ascii c (List.mem_of_getLast? hc)]

theorem splitNonWordAll_lcase (row : ShakespeareRow) :
    (lcase row.line).splitNonWordAll
      = Split.runPieces (fun c => !isLowerWordChar c) false (lcase row.line) := by
  refine Split.runPieces_congr (fun c hc => ?_) false
  obtain ⟨c, hmem, rfl⟩ := List.mem_map.1 hc
  rw [isLowerWordChar_toLower (row.ascii c hmem)]

/-! ## The pieces of a line -/

/-- A line has an empty piece unless it starts and ends with a word character. -/
theorem nil_mem_splitNonWordAll (line : JavaString) :
    [] ∈ line.splitNonWordAll ↔ ¬ WordBounded line := by
  rw [JavaString.splitNonWordAll, Split.nil_mem_runPieces, WordBounded]
  cases line.head? <;> cases line.getLast? <;> simp [imp_iff_not_or]

theorem nil_mem_words (shakespeare : List ShakespeareRow) :
    (⟨[]⟩ : Text) ∈ words shakespeare ↔ ¬ ∀ row ∈ shakespeare, WordBounded row.line := by
  simp only [words, List.mem_flatMap, List.mem_map, Text.mk.injEq, exists_eq_right,
    nil_mem_splitNonWordAll, wordBounded_lcase, not_forall, exists_prop]

theorem count_map_mk (w : JavaString) (pieces : List JavaString) :
    (pieces.map Text.mk).count ⟨w⟩ = pieces.count w :=
  List.count_map_of_injective _ _ (fun _ _ h => (Text.mk.inj h)) w

theorem count_words_lower {w : JavaString} (hw : w ≠ []) (shakespeare : List ShakespeareRow) :
    (words shakespeare).count ⟨w⟩ = lowerOccurrences shakespeare w := by
  rw [words, List.count_flatMap, lowerOccurrences]
  refine congrArg List.sum (List.map_congr_left fun row _ => ?_)
  rw [Function.comp_apply, count_map_mk, splitNonWordAll_lcase]
  exact Split.count_runPieces isLowerWordChar hw _

theorem count_words_mapReduce {w : JavaString} (hw : w ≠ []) (shakespeare : List ShakespeareRow) :
    (words shakespeare).count ⟨w⟩ = occurrences (loweredLines shakespeare) w := by
  rw [words, List.count_flatMap, occurrences, loweredLines, List.map_map]
  refine congrArg List.sum (List.map_congr_left fun row _ => ?_)
  rw [Function.comp_apply, count_map_mk, JavaString.count_splitNonWordAll hw]
  rfl

theorem lowerOccurrences_nil (shakespeare : List ShakespeareRow) :
    lowerOccurrences shakespeare [] = 0 := by
  simp [lowerOccurrences, Split.runCount, Split.IsRunAt]

/-! ## The table -/

theorem mem_wordcount {shakespeare : List ShakespeareRow} {word : Text} {n : ℕ} :
    (word, n) ∈ wordcount shakespeare ↔
      word ∈ words shakespeare ∧ n = (words shakespeare).count word := by
  rw [wordcount, (List.perm_insertionSort _ _).mem_iff, Sql.mem_groupCount]

theorem nodup_wordcount (shakespeare : List ShakespeareRow) :
    ((wordcount shakespeare).map Prod.fst).Nodup :=
  ((List.perm_insertionSort _ _).map Prod.fst).nodup_iff.2 (Sql.nodup_keys_groupCount _)

/-- A row of a non-empty word is right, whatever the lines. -/
theorem mem_wordcount_of_ne_nil {shakespeare : List ShakespeareRow} {w : JavaString} {n : ℕ}
    (hw : w ≠ []) : (⟨w⟩, n) ∈ wordcount shakespeare ↔
      0 < lowerOccurrences shakespeare w ∧ n = lowerOccurrences shakespeare w := by
  rw [mem_wordcount, ← List.count_pos_iff, count_words_lower hw]

theorem isLowerWordCount_iff (shakespeare : List ShakespeareRow) :
    IsLowerWordCount shakespeare (wordcount shakespeare) ↔
      ∀ row ∈ shakespeare, WordBounded row.line := by
  have hnil : (∀ row ∈ shakespeare, WordBounded row.line) ↔
      ∀ n, (⟨[]⟩, n) ∉ wordcount shakespeare := by
    rw [← not_iff_not, ← nil_mem_words]
    simp [mem_wordcount]
  rw [hnil]
  constructor
  · intro h n hn
    have := ((h.rows [] n).1 hn).1
    rw [lowerOccurrences_nil] at this
    exact absurd this (lt_irrefl 0)
  · intro h
    refine ⟨nodup_wordcount shakespeare, fun w n => ?_⟩
    by_cases hw : w = []
    · subst hw
      exact iff_of_false (h n) (by simp [lowerOccurrences_nil])
    · exact mem_wordcount_of_ne_nil hw

/-! ## Agreement with the MapReduce jobs -/

/-- The Hive table and the output of a MapReduce job hold the same words with the same counts. -/
def SameCounts (rows : List (Text × ℕ)) (out : List (Text × JavaInt)) : Prop :=
  (rows.map fun r => (r.1, (r.2 : ℤ))).Perm (out.map fun r => (r.1, r.2.toInt))

theorem toInt_ofNat {n : ℕ} (hn : n < 2 ^ 31) : (BitVec.ofNat 32 n).toInt = n := by
  have hnat : (BitVec.ofNat 32 n).toNat = n := by
    rw [BitVec.toNat_ofNat, Nat.mod_eq_of_lt (by omega)]
  rw [BitVec.toInt_eq_toNat_of_lt (by omega), hnat]

/-- A word with its count is in the output of a job exactly when it is the count of a word. -/
theorem mem_output_iff {lines : List Text} {out : List (Text × JavaInt)} (h : IsWordCount lines out)
    (hsmall : ∀ w, occurrences lines w < 2 ^ 31) {w : JavaString} {k : ℤ} :
    ((⟨w⟩ : Text), k) ∈ (out.map fun r => (r.1, r.2.toInt)) ↔
      0 < occurrences lines w ∧ k = occurrences lines w := by
  have hcount : ∀ count, (⟨w⟩, count) ∈ out → count.toInt = occurrences lines w := by
    intro count hmem
    rw [h.counts w count hmem, toInt_ofNat (hsmall w)]
  constructor
  · intro hk
    obtain ⟨⟨_, count⟩, hmem, hr⟩ := List.mem_map.1 hk
    obtain ⟨rfl, rfl⟩ := Prod.mk.inj hr
    exact ⟨occurrences_pos.2 ((h.words w).1 (List.mem_map_of_mem hmem)), hcount count hmem⟩
  · rintro ⟨hpos, rfl⟩
    obtain ⟨⟨_, count⟩, hmem, rfl⟩ := List.mem_map.1 ((h.words w).2 (occurrences_pos.1 hpos))
    exact List.mem_map.2 ⟨_, hmem, by rw [hcount count hmem]⟩

theorem sameCounts_iff {shakespeare : List ShakespeareRow} {out : List (Text × JavaInt)}
    (h : IsWordCount (loweredLines shakespeare) out)
    (hsmall : ∀ w, occurrences (loweredLines shakespeare) w < 2 ^ 31) :
    SameCounts (wordcount shakespeare) out ↔ ∀ row ∈ shakespeare, WordBounded row.line := by
  have hkeysHive : (((wordcount shakespeare).map fun r => (r.1, (r.2 : ℤ))).map Prod.fst).Nodup := by
    rw [List.map_map]
    exact nodup_wordcount shakespeare
  have hkeysMr : ((out.map fun r => (r.1, r.2.toInt)).map Prod.fst).Nodup := by
    rw [List.map_map]
    exact h.once
  rw [SameCounts, List.perm_ext_iff_of_nodup hkeysHive.of_map hkeysMr.of_map]
  constructor
  · intro heq
    by_contra hnot
    have hmem := (nil_mem_words shakespeare).2 hnot
    have hrow : ((⟨[]⟩ : Text), ((words shakespeare).count ⟨[]⟩ : ℤ)) ∈
        (wordcount shakespeare).map fun r => (r.1, (r.2 : ℤ)) :=
      List.mem_map.2 ⟨_, mem_wordcount.2 ⟨hmem, rfl⟩, rfl⟩
    have := ((mem_output_iff h hsmall).1 ((heq _).1 hrow)).1
    simp [occurrences] at this
  · rintro hbounded ⟨⟨w⟩, k⟩
    rw [mem_output_iff h hsmall]
    simp only [List.mem_map, Prod.exists, Prod.mk.injEq, mem_wordcount]
    by_cases hw : w = []
    · subst hw
      have hnil : (⟨[]⟩ : Text) ∉ words shakespeare := fun hmem =>
        (nil_mem_words shakespeare).1 hmem hbounded
      refine iff_of_false ?_ (by simp [occurrences])
      rintro ⟨_, _, ⟨hmem, _⟩, rfl, _⟩
      exact hnil hmem
    · rw [← count_words_mapReduce hw, List.count_pos_iff]
      constructor
      · rintro ⟨_, _, ⟨hmem, rfl⟩, rfl, rfl⟩
        exact ⟨hmem, rfl⟩
      · rintro ⟨hmem, rfl⟩
        exact ⟨_, _, ⟨hmem, rfl⟩, rfl, rfl⟩

/-- **When the Hive word count is right.** The table is the word count of the lower-cased lines if
    and only if every line starts and ends with a word character, and this is also exactly when it
    agrees with an execution of the MapReduce job on the lower-cased lines, as long as no word
    occurs too often for a Java int. -/
theorem wordcount_hql_iff (shakespeare : List ShakespeareRow) :
    (IsLowerWordCount shakespeare (wordcount shakespeare) ↔
      ∀ row ∈ shakespeare, WordBounded row.line) ∧
    ∀ (n : ℕ) (e : MapReduce.Execution MavenTemplate.wordCountJob (loweredLines shakespeare) n),
      (∀ w, occurrences (loweredLines shakespeare) w < 2 ^ 31) →
        (SameCounts (wordcount shakespeare) e.output ↔
          ∀ row ∈ shakespeare, WordBounded row.line) :=
  ⟨isLowerWordCount_iff shakespeare,
    fun _ e hsmall => sameCounts_iff (isWordCount_output rfl rfl e) hsmall⟩

theorem occurrences_le (lines : List Text) (w : JavaString) :
    occurrences lines w ≤ (lines.map fun line => line.chars.length).sum := by
  refine List.sum_le_sum fun line _ => ?_
  exact List.countP_le_length.trans (List.length_range).le

/-- One line without punctuation at its ends. -/
def toBe : List ShakespeareRow := [⟨"To be, or not to be".toList, ascii_of_all (by decide)⟩]

theorem wordcount_hql_iff_toBe :
    SameCounts (wordcount toBe) (MapReduce.Execution.sorted MavenTemplate.wordCountJob
      (loweredLines toBe) (fun _ => 0 : Text → Fin 1)).output ↔
      ∀ row ∈ toBe, WordBounded row.line :=
  (wordcount_hql_iff toBe).2 1 _ fun w => (occurrences_le _ w).trans_lt (by decide)

/-- A line that ends with a full stop, and a blank line: the table counts the empty string twice. -/
theorem wordcount_hql_counts_empty_word :
    ¬ IsLowerWordCount [⟨"To be.".toList, ascii_of_all (by decide)⟩, ⟨[], nofun⟩]
      (wordcount [⟨"To be.".toList, ascii_of_all (by decide)⟩, ⟨[], nofun⟩]) := by
  intro h
  have hrow := ((h.rows [] 2).1 (by decide)).1
  rw [lowerOccurrences_nil] at hrow
  exact absurd hrow (lt_irrefl 0)

end HiveWordCount

end HadoopExamples
