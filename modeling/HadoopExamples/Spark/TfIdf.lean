import Mathlib.Algebra.Order.Field.Rat
import Mathlib.Data.Nat.Cast.Field
import Mathlib.Data.List.DropRight
import HadoopExamples.Platform.Python
import HadoopExamples.Platform.Spark

set_option autoImplicit false

/-! # tf-idf

`tf-idf.spark` weighs the words of a file by how often they occur in it and by how few other files
they occur in. It is a Python 2 script, so the number of files divided by the number of files with
the word is a whole number: `tfidf_iff` says for which files nothing is lost. -/

namespace HadoopExamples.TfIdf

open Python

/-! ## The script -/

/-- A file of `wholeTextFiles`: its path and its content. -/
abbrev TextFile := PyString × PyString

/-- `os.path.basename(path)` -/
def basename (path : PyString) : PyString := path.rtakeWhile (· != '/')

def mylines (mytext : List TextFile) : List (PyString × PyString) :=
  mytext.map fun (filename, content) =>
    (basename filename, content.map fun c => if c = '\n' then ' ' else c)

def mywords (mytext : List TextFile) : List (PyString × PyString) :=
  (mylines mytext).flatMap fun (filename, content) =>
    (content.splitOnP (· == ' ')).map fun word => (filename, word)

/-- The RDD `tf` as the two actions compute it, `countByKey` for `df` and `collect` for `tfidf`. -/
structure Run (mytext : List TextFile) where
  counted : List ((PyString × PyString) × ℕ)
  collected : List ((PyString × PyString) × ℕ)
  tf_counted : Spark.ReduceByKey (· + ·) ((mywords mytext).map fun key => (key, 1)) counted
  tf_collected : Spark.ReduceByKey (· + ·) ((mywords mytext).map fun key => (key, 1)) collected

/-- The run whose counts come in the order of the words. -/
def Run.inOrder (mytext : List TextFile) : Run mytext :=
  ⟨_, _, Spark.reduceByKey_ones (mywords mytext), Spark.reduceByKey_ones (mywords mytext)⟩

def df (tf : List ((PyString × PyString) × ℕ)) : PyString → Option ℕ :=
  Spark.countByKey (tf.map fun ((_, word), _) => (word, 1))

inductive PyException where
  | typeError
  | zeroDivisionError
  | valueError

section Script

variable {R : Type} [Ring R]

/-- `math.log(bign / df)`, where the integers are divided to an integer. -/
def idf (log : ℚ → R) (bign : ℕ) : Option ℕ → Except PyException R
  | none => .error .typeError
  | some 0 => .error .zeroDivisionError
  | some df =>
    if bign / df = 0 then .error .valueError
    else .ok (log (bign / df : ℕ))

def tfidf (log : ℚ → R) {mytext : List TextFile} (run : Run mytext) :
    Except PyException (List ((PyString × PyString) × R)) :=
  run.collected.mapM fun ((file, word), count) => do
    let weight ← idf log mytext.length (df run.counted word)
    return ((file, word), count * weight)

end Script

/-! ## What is to be computed -/

/-- The pieces of a content between blanks and ends of lines. -/
def words (content : PyString) : List PyString :=
  (content.map fun c => if c = '\n' then ' ' else c).splitOnP (· == ' ')

/-- The number of files that contain the word. -/
def documents (mytext : List TextFile) (word : PyString) : ℕ :=
  mytext.countP fun file => word ∈ words file.2

/-- Every word of every file has its weight once, with the exact ratio of the numbers of files; and
    of two words that are equally frequent in a file, the one in fewer files weighs more. -/
structure IsTfIdf {R : Type} [Ring R] [LinearOrder R] (log : ℚ → R) (mytext : List TextFile)
    (result : List ((PyString × PyString) × R)) : Prop where
  once : (result.map Prod.fst).Nodup
  mem_iff : ∀ file word, (file, word) ∈ result.map Prod.fst ↔
    ∃ f ∈ mytext, basename f.1 = file ∧ word ∈ words f.2
  weight : ∀ f ∈ mytext, ∀ word x, ((basename f.1, word), x) ∈ result →
    x = (words f.2).count word * log (mytext.length / documents mytext word)
  ranking : ∀ f ∈ mytext, ∀ word word' x x', ((basename f.1, word), x) ∈ result →
    ((basename f.1, word'), x') ∈ result → (words f.2).count word = (words f.2).count word' →
    documents mytext word < documents mytext word' → x' < x

/-! ## Term and document frequencies -/

theorem mywords_eq (mytext : List TextFile) :
    mywords mytext = MapReduce.ungroup (mytext.map fun f => (basename f.1, words f.2)) := by
  unfold mywords mylines MapReduce.ungroup
  rw [List.flatMap_map, List.flatMap_map]
  rfl

theorem mem_mywords {mytext : List TextFile} {file word : PyString} :
    (file, word) ∈ mywords mytext ↔ ∃ f ∈ mytext, basename f.1 = file ∧ word ∈ words f.2 := by
  rw [mywords_eq, MapReduce.mem_ungroup]
  constructor
  · rintro ⟨ws, hmem, hword⟩
    obtain ⟨f, hf, heq⟩ := List.mem_map.1 hmem
    obtain ⟨rfl, rfl⟩ := Prod.mk.inj heq
    exact ⟨f, hf, rfl, hword⟩
  · rintro ⟨f, hf, rfl, hword⟩
    exact ⟨words f.2, List.mem_map_of_mem hf, hword⟩

theorem documents_pos {mytext : List TextFile} {f : TextFile} (hf : f ∈ mytext) {word : PyString}
    (hword : word ∈ words f.2) : 0 < documents mytext word :=
  List.countP_pos_iff.2 ⟨f, hf, by simpa using hword⟩

theorem documents_le (mytext : List TextFile) (word : PyString) :
    documents mytext word ≤ mytext.length :=
  List.countP_le_length

section Frequencies

variable {mytext : List TextFile} (hnames : (mytext.map fun f => basename f.1).Nodup)

include hnames

/-- The count of a word under a name is its count in the file of that name. -/
theorem count_mywords {f : TextFile} (hf : f ∈ mytext) (word : PyString) :
    ((mywords mytext).countP fun key => key = (basename f.1, word)) = (words f.2).count word := by
  have hkeys : ((mytext.map fun f => (basename f.1, words f.2)).map Prod.fst).Nodup := by
    rw [List.map_map]
    exact hnames
  rw [← MapReduce.countP_valuesOf, mywords_eq,
    MapReduce.valuesOf_ungroup hkeys (List.mem_map_of_mem hf), Spark.countP_eq_count]

/-- `tf` has one record for each file that contains a word. -/
theorem countP_tf {tf : List ((PyString × PyString) × ℕ)}
    (htf : Spark.ReduceByKey (· + ·) ((mywords mytext).map fun key => (key, 1)) tf)
    (word : PyString) : (tf.countP fun kv => kv.1.2 = word) = documents mytext word := by
  have hfiles :
      ((mytext.filter fun f => word ∈ words f.2).map fun f => (basename f.1, word)).Nodup := by
    have hnodup : ((mytext.filter fun f => word ∈ words f.2).map fun f => basename f.1).Nodup :=
      hnames.sublist (List.filter_sublist.map _)
    have hpairs := hnodup.map (f := fun name => (name, word)) fun _ _ h => (Prod.mk.inj h).1
    rwa [List.map_map] at hpairs
  have hperm : ((tf.map Prod.fst).filter fun key => key.2 = word).Perm
      ((mytext.filter fun f => word ∈ words f.2).map fun f => (basename f.1, word)) := by
    refine (List.perm_ext_iff_of_nodup (htf.nodup.filter _) hfiles).2 ?_
    rintro ⟨file, word'⟩
    rw [List.mem_filter, htf.mem_keys_ones, mem_mywords]
    simp only [List.mem_map, List.mem_filter, decide_eq_true_eq, Prod.mk.injEq]
    constructor
    · rintro ⟨⟨f, hf, hfile, hword⟩, rfl⟩
      exact ⟨f, ⟨hf, hword⟩, hfile, rfl⟩
    · rintro ⟨f, ⟨hf, hword⟩, hfile, rfl⟩
      exact ⟨⟨f, hf, hfile, hword⟩, rfl⟩
  calc (tf.countP fun kv => kv.1.2 = word)
    _ = ((tf.map Prod.fst).filter fun key => key.2 = word).length := by
        rw [← List.countP_eq_length_filter, List.countP_map]
        rfl
    _ = documents mytext word := by
        rw [hperm.length_eq, List.length_map, ← List.countP_eq_length_filter]
        rfl

theorem df_eq {tf : List ((PyString × PyString) × ℕ)}
    (htf : Spark.ReduceByKey (· + ·) ((mywords mytext).map fun key => (key, 1)) tf)
    {f : TextFile} (hf : f ∈ mytext) {word : PyString} (hword : word ∈ words f.2) :
    df tf word = some (documents mytext word) := by
  have hkey : word ∈ (tf.map fun ((_, word), _) => (word, 1)).map Prod.fst := by
    have hmem := htf.mem_keys_ones.2 (mem_mywords.2 ⟨f, hf, rfl, hword⟩)
    obtain ⟨⟨key, count⟩, hkv, rfl⟩ := List.mem_map.1 hmem
    rw [List.map_map]
    exact List.mem_map.2 ⟨_, hkv, rfl⟩
  unfold df
  rw [Spark.countByKey_eq hkey, List.countP_map]
  exact congrArg some (countP_tf hnames htf word)

end Frequencies

/-! ## The weights -/

section Weights

variable {R : Type} [Ring R] {log : ℚ → R} {mytext : List TextFile}

/-- The records that the script computes, with the ratio rounded down. -/
def weighted (log : ℚ → R) (mytext : List TextFile) (tf : List ((PyString × PyString) × ℕ)) :
    List ((PyString × PyString) × R) :=
  tf.map fun kv => (kv.1, kv.2 * log (mytext.length / documents mytext kv.1.2 : ℕ))

theorem tfidf_eq (hnames : (mytext.map fun f => basename f.1).Nodup) (run : Run mytext) :
    tfidf log run = .ok (weighted log mytext run.collected) := by
  refine Spark.mapM_ok fun kv hkv => ?_
  obtain ⟨⟨file, word⟩, count⟩ := kv
  obtain ⟨f, hf, _, hword⟩ := mem_mywords.1
    (run.tf_collected.mem_keys_ones.1 (List.mem_map_of_mem hkv))
  have hpos := documents_pos hf hword
  have hquot : mytext.length / documents mytext word ≠ 0 :=
    (Nat.div_pos (documents_le mytext word) hpos).ne'
  have hidf : idf log mytext.length (df run.counted word)
      = .ok (log (mytext.length / documents mytext word : ℕ)) := by
    rw [df_eq hnames run.tf_counted hf hword]
    obtain ⟨d, hd⟩ := Nat.exists_eq_succ_of_ne_zero hpos.ne'
    rw [hd] at hquot ⊢
    exact if_neg hquot
  show (idf log mytext.length (df run.counted word) >>= _) = _
  rw [hidf]
  rfl

theorem map_fst_weighted (log : ℚ → R) (mytext : List TextFile)
    (tf : List ((PyString × PyString) × ℕ)) :
    (weighted log mytext tf).map Prod.fst = tf.map Prod.fst := by
  unfold weighted
  rw [List.map_map]
  rfl

theorem mem_weighted {tf : List ((PyString × PyString) × ℕ)}
    (hnames : (mytext.map fun f => basename f.1).Nodup)
    (htf : Spark.ReduceByKey (· + ·) ((mywords mytext).map fun key => (key, 1)) tf)
    {f : TextFile} (hf : f ∈ mytext) {word : PyString} {x : R}
    (hx : ((basename f.1, word), x) ∈ weighted log mytext tf) :
    word ∈ words f.2 ∧
      x = (words f.2).count word * log (mytext.length / documents mytext word : ℕ) := by
  obtain ⟨⟨key, count⟩, hkv, heq⟩ := List.mem_map.1 hx
  obtain ⟨rfl, rfl⟩ := Prod.mk.inj heq
  have hcount : count = (words f.2).count word := by
    rw [← count_mywords hnames hf word]
    exact htf.eq_count hkv
  have hpos : 0 < (mywords mytext).countP fun key => key = (basename f.1, word) := by
    refine List.countP_pos_iff.2 ⟨_, htf.mem_keys_ones.1 (List.mem_map_of_mem hkv), ?_⟩
    exact decide_eq_true rfl
  rw [count_mywords hnames hf] at hpos
  exact ⟨List.count_pos_iff.1 hpos, by rw [hcount]⟩

theorem exists_mem_weighted (log : ℚ → R) {tf : List ((PyString × PyString) × ℕ)}
    (htf : Spark.ReduceByKey (· + ·) ((mywords mytext).map fun key => (key, 1)) tf)
    {f : TextFile} (hf : f ∈ mytext) {word : PyString} (hword : word ∈ words f.2) :
    ∃ x, ((basename f.1, word), x) ∈ weighted log mytext tf := by
  have hkey := htf.mem_keys_ones.2 (mem_mywords.2 ⟨f, hf, rfl, hword⟩)
  rw [← map_fst_weighted log mytext] at hkey
  obtain ⟨⟨_, x⟩, hx, rfl⟩ := List.mem_map.1 hkey
  exact ⟨x, hx⟩

end Weights

/-- A quotient of natural numbers is exact only without a remainder. -/
theorem cast_div_eq_iff {n d : ℕ} (hd : 0 < d) : ((n / d : ℕ) : ℚ) = n / d ↔ d ∣ n := by
  have hdq : (d : ℚ) ≠ 0 := Nat.cast_ne_zero.2 hd.ne'
  refine ⟨fun h => ?_, fun h => Nat.cast_div_charZero h⟩
  rw [eq_div_iff hdq] at h
  exact ⟨n / d, by rw [Nat.mul_comm]; exact_mod_cast h.symm⟩

/-! ## When nothing is lost -/

section Ranking

variable {R : Type} [Ring R] [LinearOrder R] [IsStrictOrderedRing R] {log : ℚ → R}
  {mytext : List TextFile} {tf : List ((PyString × PyString) × ℕ)}

theorem ratio_pos {f : TextFile} (hf : f ∈ mytext) {word : PyString} (hword : word ∈ words f.2) :
    (0 : ℚ) < mytext.length / documents mytext word :=
  div_pos (Nat.cast_pos.2 (List.length_pos_of_mem hf)) (Nat.cast_pos.2 (documents_pos hf hword))

theorem count_pos {f : TextFile} {word : PyString} (hword : word ∈ words f.2) :
    (0 : R) < (words f.2).count word :=
  Nat.cast_pos.2 (List.count_pos_iff.2 hword)

/-- The logarithm of a ratio that is rounded down is another one. -/
theorem dvd_of_isTfIdf (hlog : StrictMonoOn log (Set.Ioi 0))
    (hnames : (mytext.map fun f => basename f.1).Nodup)
    (htf : Spark.ReduceByKey (· + ·) ((mywords mytext).map fun key => (key, 1)) tf)
    (h : IsTfIdf log mytext (weighted log mytext tf)) :
    ∀ f ∈ mytext, ∀ word ∈ words f.2, documents mytext word ∣ mytext.length := by
  intro f hf word hword
  obtain ⟨x, hx⟩ := exists_mem_weighted log htf hf hword
  have hexact := h.weight f hf word x hx
  rw [(mem_weighted hnames htf hf hx).2] at hexact
  have hpos := documents_pos hf hword
  have hquot : (0 : ℚ) < (mytext.length / documents mytext word : ℕ) :=
    Nat.cast_pos.2 (Nat.div_pos (documents_le mytext word) hpos)
  have heq := hlog.injOn hquot (ratio_pos hf hword)
    (mul_left_cancel₀ (count_pos hword).ne' hexact)
  exact (cast_div_eq_iff hpos).1 heq

theorem isTfIdf_of_dvd (hlog : StrictMonoOn log (Set.Ioi 0))
    (hnames : (mytext.map fun f => basename f.1).Nodup)
    (htf : Spark.ReduceByKey (· + ·) ((mywords mytext).map fun key => (key, 1)) tf)
    (hdvd : ∀ f ∈ mytext, ∀ word ∈ words f.2, documents mytext word ∣ mytext.length) :
    IsTfIdf log mytext (weighted log mytext tf) := by
  have hexact {f : TextFile} {word : PyString} {x : R} (hf : f ∈ mytext)
      (hx : ((basename f.1, word), x) ∈ weighted log mytext tf) :
      word ∈ words f.2 ∧
        x = (words f.2).count word * log (mytext.length / documents mytext word) := by
    obtain ⟨hword, rfl⟩ := mem_weighted hnames htf hf hx
    rw [(cast_div_eq_iff (documents_pos hf hword)).2 (hdvd f hf word hword)]
    exact ⟨hword, rfl⟩
  constructor
  · rw [map_fst_weighted]
    exact htf.nodup
  · intro file word
    rw [map_fst_weighted, htf.mem_keys_ones, mem_mywords]
  · exact fun f hf word x hx => (hexact hf hx).2
  · intro f hf word word' x x' hx hx' hfrequency hless
    obtain ⟨hword, rfl⟩ := hexact hf hx
    obtain ⟨hword', rfl⟩ := hexact hf hx'
    have hratio : (mytext.length / documents mytext word' : ℚ)
        < mytext.length / documents mytext word :=
      div_lt_div_of_pos_left (Nat.cast_pos.2 (List.length_pos_of_mem hf))
        (Nat.cast_pos.2 (documents_pos hf hword)) (Nat.cast_lt.2 hless)
    rw [hfrequency]
    exact mul_lt_mul_of_pos_left (hlog (ratio_pos hf hword') (ratio_pos hf hword) hratio)
      (count_pos hword')

end Ranking

/-- For files with different base names, the script completes, however its counts are added up; and
    what it computes is tf-idf exactly if the number of files with a word always divides the number
    of files. -/
theorem tfidf_iff {R : Type} [Ring R] [LinearOrder R] [IsStrictOrderedRing R] (log : ℚ → R)
    (hlog : StrictMonoOn log (Set.Ioi 0)) (mytext : List TextFile)
    (hnames : (mytext.map fun f => basename f.1).Nodup) (run : Run mytext) :
    ∃ result, tfidf log run = .ok result ∧
      (IsTfIdf log mytext result ↔
        ∀ f ∈ mytext, ∀ word ∈ words f.2, documents mytext word ∣ mytext.length) :=
  ⟨_, tfidf_eq hnames run, dvd_of_isTfIdf hlog hnames run.tf_collected,
    isTfIdf_of_dvd hlog hnames run.tf_collected⟩

/-- Two files, a word in both and a word in one. -/
theorem tfidf_iff_two : ∃ result,
    tfidf (R := ℚ) id (Run.inOrder [("d/a".toList, "x".toList), ("d/b".toList, "x\ny x".toList)])
      = .ok result ∧
    IsTfIdf id [("d/a".toList, "x".toList), ("d/b".toList, "x\ny x".toList)] result := by
  obtain ⟨result, hresult, hiff⟩ := tfidf_iff (R := ℚ) id (fun _ _ _ _ h => h)
    [("d/a".toList, "x".toList), ("d/b".toList, "x\ny x".toList)] (by decide) (Run.inOrder _)
  exact ⟨result, hresult, hiff.2 (by decide)⟩

/-- A word in two of three files and a word in all of them: 3 / 2 and 3 / 3 are both 1, and the
    words weigh the same. -/
theorem tfidf_rounds_down : ∃ result,
    tfidf (R := ℚ) id (Run.inOrder
      [("d/a".toList, "x y".toList), ("d/b".toList, "x y".toList), ("d/c".toList, "y".toList)])
      = .ok result ∧
    (("a".toList, "x".toList), 1) ∈ result ∧ (("a".toList, "y".toList), 1) ∈ result ∧
    ¬ IsTfIdf id
      [("d/a".toList, "x y".toList), ("d/b".toList, "x y".toList), ("d/c".toList, "y".toList)]
      result := by
  refine ⟨_, tfidf_eq (by decide) _, by decide +kernel, by decide +kernel, fun h => ?_⟩
  have hranking := h.ranking ("d/a".toList, "x y".toList) (by decide) "x".toList "y".toList 1 1
    (by decide +kernel) (by decide +kernel) (by decide) (by decide)
  exact absurd hranking (by decide)

end HadoopExamples.TfIdf
