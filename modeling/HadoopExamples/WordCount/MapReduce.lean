import HadoopExamples.Library.MapReduce
import HadoopExamples.Platform.Java
import Mathlib.Algebra.BigOperators.Group.List.Basic

set_option autoImplicit false

/-! # The MapReduce word counts

`WordMapper` and `SumReducer` stand in the repository twice, written against the old API in the
Maven template and against the new one in the total-order project. The two copies do the same with
a line and with the values of a word, so they share one body here and every result is about both.

`IsWordCount` says what a word count of some lines is, in terms of maximal runs of word characters;
`wordCount_correct` shows that every execution of either job ends in one. -/

namespace HadoopExamples

/-! ## The code -/

/-- `for (String word : line.split("\\W+")) if (word.length() > 0) write(word, 1)` -/
def emitWords (line : Text) : List (Text × JavaInt) :=
  line.chars.splitNonWord.flatMap fun word => if word.length > 0 then [(⟨word⟩, 1)] else []

/-- `wordCount += value.get()` over the values, then one record. -/
def sumValues (key : Text) (values : List JavaInt) : List (Text × JavaInt) :=
  [(key, values.foldl (fun wordCount value => wordCount + value) 0)]

namespace MavenTemplate

def WordMapper.map (value : Text) : List (Text × JavaInt) := emitWords value

def SumReducer.reduce (key : Text) (values : List JavaInt) : List (Text × JavaInt) :=
  sumValues key values

def wordCountJob : MapReduce.Job Text Text JavaInt (Text × JavaInt) :=
  ⟨WordMapper.map, SumReducer.reduce⟩

end MavenTemplate

namespace TotalOrder

def WordMapper.map (value : Text) : List (Text × JavaInt) := emitWords value

def SumReducer.reduce (key : Text) (values : List JavaInt) : List (Text × JavaInt) :=
  sumValues key values

def wordCountJob : MapReduce.Job Text Text JavaInt (Text × JavaInt) :=
  ⟨WordMapper.map, SumReducer.reduce⟩

end TotalOrder

/-! ## What a word count is -/

/-- The number of places at which `w` is a maximal run of word characters in some line. -/
def occurrences (lines : List Text) (w : JavaString) : ℕ :=
  (lines.map fun line => line.chars.wordCount w).sum

/-- `out` is the word count of `lines`: every word that is a maximal run of word characters in some
    line has one record, with its number of occurrences as a Java int, and nothing else has one. -/
structure IsWordCount (lines : List Text) (out : List (Text × JavaInt)) : Prop where
  once : (out.map Prod.fst).Nodup
  words : ∀ w, (⟨w⟩ : Text) ∈ out.map Prod.fst ↔
    ∃ line ∈ lines, ∃ i, Split.IsRunAt JavaString.isWordChar line.chars w i
  no_empty_word : (⟨[]⟩ : Text) ∉ out.map Prod.fst
  counts : ∀ w count, (⟨w⟩, count) ∈ out → count = BitVec.ofNat 32 (occurrences lines w)

theorem occurrences_pos {lines : List Text} {w : JavaString} :
    0 < occurrences lines w ↔
      ∃ line ∈ lines, ∃ i, Split.IsRunAt JavaString.isWordChar line.chars w i := by
  simp only [occurrences, List.sum_pos_iff_exists_pos_nat, List.mem_map, ← Split.runCount_pos,
    JavaString.wordCount]
  constructor
  · rintro ⟨_, ⟨line, hline, rfl⟩, hpos⟩
    exact ⟨line, hline, hpos⟩
  · rintro ⟨line, hline, hpos⟩
    exact ⟨_, ⟨line, hline, rfl⟩, hpos⟩

/-! ## Both jobs count words -/

/-- The words that the mapper writes for a line. -/
def lineWords (line : Text) : List JavaString :=
  line.chars.splitNonWordAll.filter fun word => !word.isEmpty

theorem emitWords_eq (line : Text) :
    emitWords line = (lineWords line).map fun word => (⟨word⟩, 1) := by
  have hloop : ∀ pieces : List JavaString,
      (pieces.flatMap fun word => if word.length > 0 then [((⟨word⟩ : Text), (1 : JavaInt))] else [])
        = (pieces.filter fun word => !word.isEmpty).map fun word => (⟨word⟩, 1) := by
    intro pieces
    induction pieces with
    | nil => rfl
    | cons word pieces ih =>
      rw [List.flatMap_cons, ih]
      cases word <;> simp
  rw [emitWords, hloop, JavaString.splitNonWord, Split.filter_dropTrailing]
  rfl

theorem count_lineWords {w : JavaString} (hw : w ≠ []) (line : Text) :
    (lineWords line).count w = line.chars.wordCount w := by
  rw [lineWords, List.count_filter (by simpa using hw), JavaString.count_splitNonWordAll hw]

theorem count_words {w : JavaString} (hw : w ≠ []) (lines : List Text) :
    (lines.flatMap lineWords).count w = occurrences lines w := by
  rw [List.count_flatMap, occurrences]
  exact congrArg List.sum (List.map_congr_left fun line _ => count_lineWords hw line)

theorem nil_not_mem_words (lines : List Text) : ([] : JavaString) ∉ lines.flatMap lineWords := by
  simp [lineWords]

/-- Summing the ones of a word gives their number, in any order. -/
theorem sumValues_ones {key : Text} {values : List JavaInt} {count : ℕ}
    (h : values.Perm (List.replicate count 1)) :
    sumValues key values = [(key, BitVec.ofNat 32 count)] := by
  have hsum : values.foldl (fun wordCount value => wordCount + value) 0 = values.sum :=
    List.sum_eq_foldl.symm
  rw [sumValues, hsum, h.sum_eq, List.sum_replicate, nsmul_one]
  rfl

section Executions

variable {lines : List Text} {n : ℕ} {job : MapReduce.Job Text Text JavaInt (Text × JavaInt)}

/-- The reduce calls of such a job group the words of the lines, each with a one. -/
theorem grouping_words (hmap : job.map = emitWords) (e : MapReduce.Execution job lines n) :
    MapReduce.Grouping
      ((lines.flatMap lineWords).map fun word => ((⟨word⟩ : Text), (1 : JavaInt))) e.groups := by
  have hrecords : lines.flatMap job.map
      = (lines.flatMap lineWords).map fun word => ((⟨word⟩ : Text), (1 : JavaInt)) := by
    rw [hmap, List.map_flatMap]
    exact List.flatMap_congr fun line _ => emitWords_eq line
  exact e.grouping_input.of_perm (List.Perm.of_eq hrecords)

/-- The output of such a job: every reduce call writes its word with its number of occurrences. -/
theorem output_words (hmap : job.map = emitWords) (hreduce : job.reduce = sumValues)
    (e : MapReduce.Execution job lines n) :
    e.output = e.groups.map fun g =>
      (g.1, BitVec.ofNat 32 ((lines.flatMap lineWords).count g.1.chars)) := by
  rw [MapReduce.Execution.output, hreduce, List.map_eq_flatMap]
  refine List.flatMap_congr fun g hg => ?_
  refine sumValues_ones (((grouping_words hmap e).values_replicate hg).trans ?_)
  refine List.Perm.of_eq (congrArg (List.replicate · 1) (List.countP_congr fun word _ => ?_))
  simp [Text.ext_iff]

theorem isWordCount_output (hmap : job.map = emitWords) (hreduce : job.reduce = sumValues)
    (e : MapReduce.Execution job lines n) : IsWordCount lines e.output := by
  have hgroups := grouping_words hmap e
  have hkeys : e.output.map Prod.fst = e.groups.map Prod.fst := by
    rw [output_words hmap hreduce, List.map_map]
    rfl
  have hmem : ∀ w, (⟨w⟩ : Text) ∈ e.output.map Prod.fst ↔ w ∈ lines.flatMap lineWords := by
    intro w
    rw [hkeys, hgroups.mem_keys]
    simp
  refine ⟨hkeys ▸ hgroups.keys_nodup, ?_, ?_, ?_⟩
  · intro w
    rw [hmem, ← occurrences_pos]
    by_cases hw : w = []
    · subst hw
      exact iff_of_false (nil_not_mem_words lines) (by simp [occurrences])
    · rw [← count_words hw, List.count_pos_iff]
  · rw [hmem]
    exact nil_not_mem_words lines
  · intro w count hout
    have hw : w ≠ [] := by
      rintro rfl
      exact nil_not_mem_words lines ((hmem []).1 (List.mem_map_of_mem hout))
    rw [output_words hmap hreduce] at hout
    obtain ⟨g, _, hg⟩ := List.mem_map.1 hout
    obtain ⟨hkey, rfl⟩ := Prod.mk.inj hg
    rw [hkey, count_words hw]

/-- **Both word-count jobs are correct.** Every execution, however the lines are divided among the
    map tasks, the words among the reducers and whatever the order of the values, ends in the word
    count of the lines. -/
theorem wordCount_correct (lines : List Text) (n : ℕ) :
    (∀ e : MapReduce.Execution MavenTemplate.wordCountJob lines n, IsWordCount lines e.output) ∧
    (∀ e : MapReduce.Execution TotalOrder.wordCountJob lines n, IsWordCount lines e.output) :=
  ⟨fun e => isWordCount_output rfl rfl e, fun e => isWordCount_output rfl rfl e⟩

/-- The line of the unit test in the Maven template, with one reducer -/
theorem wordCount_correct_cat :
    let e := MapReduce.Execution.sorted MavenTemplate.wordCountJob [⟨"cat cat dog".toList⟩]
      (fun _ => 0 : Text → Fin 1)
    let e' := MapReduce.Execution.sorted TotalOrder.wordCountJob [⟨"cat cat dog".toList⟩]
      (fun _ => 0 : Text → Fin 1)
    e.output = [(⟨"cat".toList⟩, 2), (⟨"dog".toList⟩, 1)] ∧
    e'.output = [(⟨"cat".toList⟩, 2), (⟨"dog".toList⟩, 1)] ∧
    IsWordCount [⟨"cat cat dog".toList⟩] e.output ∧
    IsWordCount [⟨"cat cat dog".toList⟩] e'.output := by
  intro e e'
  obtain ⟨hword, hword'⟩ := wordCount_correct [⟨"cat cat dog".toList⟩] 1
  exact ⟨by decide, by decide, hword e, hword' e'⟩

end Executions

end HadoopExamples
