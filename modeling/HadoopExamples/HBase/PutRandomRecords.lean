import HadoopExamples.Library.Decimal
import HadoopExamples.Platform.Groovy
import HadoopExamples.Platform.HBase

set_option autoImplicit false

/-! # The loader of random ratings

`putFromRandom` of `PutRandomRecords.groovy` puts a batch of random ratings, each under its position
in the batch. Every batch writes the same row keys, and one more of them than it was asked for, so
the batches add up only by accident (`putBatches_rows_iff`). -/

namespace HadoopExamples.PutRandomRecords

/-! ## The code -/

structure Rating where
  movieid : JavaInt
  userid : JavaInt
  rating : JavaInt
  timestamp : ℤ

/-- What one rating gets from `nextInt(72000)`, `nextInt(5)` and the clock. -/
structure Draw where
  userid : Fin 72000
  rating : Fin 5
  now : ℤ

def genRandomMovieRatings (numRatings : ℤ) (draws : ℕ → Draw) : List Rating :=
  (Groovy.range 0 numRatings).mapIdx fun call rtg =>
    { movieid := BitVec.ofInt 32 (rtg.tmod 64000)
      userid := BitVec.ofNat 32 (draws call).userid
      rating := BitVec.ofNat 32 ((draws call).rating + 1)
      timestamp := (draws call).now }

/-- The family of the ratings. -/
def ratingsFamily : Bytes := Bytes.ofString "ratings".toList

/-- The family of the few cells that the loader adds between ratings. -/
def smallFamily : Bytes := Bytes.ofString "smallcf".toList

def comment : JavaString :=
  (List.replicate 10 "A totally worthless comment.  Blah Blah. Blah.".toList).flatten

/-- The put of the rating at position `i` of a batch. -/
def ratingPut (i : ℕ) (it : Rating) : Put where
  row := Bytes.ofInt (BitVec.ofNat 32 i)
  cells :=
    [(⟨ratingsFamily, Bytes.ofInt it.movieid⟩, Bytes.ofInt it.rating),
     (⟨ratingsFamily, Bytes.ofString (Decimal.ofInt it.movieid.toInt ++ ":comment".toList)⟩,
       Bytes.ofString comment)]

/-- The put that follows every rating whose position is a multiple of 10000. -/
def smallPut (it : Rating) : Put where
  row := Bytes.ofInt it.userid
  cells := [(⟨smallFamily, Bytes.ofInt it.movieid⟩, Bytes.ofInt it.rating)]

/-- The puts of `putFromRandom(ratingsTable, numRecords)`. -/
def putFromRandom (numRecords : ℤ) (draws : ℕ → Draw) : List Put :=
  (genRandomMovieRatings numRecords draws).zipIdx.flatMap fun (it, i) =>
    ratingPut i it :: if i % 10000 = 0 then [smallPut it] else []

/-- The table after `numBatches.times { putFromRandom(ratingsTable, numRecords) }`. -/
def putBatches (numBatches : ℕ) (numRecords : ℤ) (draws : ℕ → ℕ → Draw) : HTable :=
  HTable.putAll ((List.range numBatches).flatMap fun batch =>
    putFromRandom numRecords (draws batch))

/-! ## The rows of a batch -/

theorem ratingPut_writes (i : ℕ) (it : Rating) :
    (ratingPut i it).writes ratingsFamily = true := by
  simp [Put.writes, ratingPut]

theorem smallPut_writes (it : Rating) : (smallPut it).writes ratingsFamily = false := by
  have hne : smallFamily ≠ ratingsFamily := by decide
  simp [Put.writes, smallPut, hne]

/-- A batch puts its ratings under their positions. -/
theorem map_row_putFromRandom (numRecords : ℕ) (draws : ℕ → Draw) :
    ((putFromRandom numRecords draws).filter (Put.writes ratingsFamily)).map Put.row
      = (List.range (numRecords + 1)).map fun i => Bytes.ofInt (BitVec.ofNat 32 i) := by
  have hlength : (genRandomMovieRatings numRecords draws).length = numRecords + 1 := by
    unfold genRandomMovieRatings
    rw [List.length_mapIdx, Groovy.length_range_zero]
  have hposition : ∀ p : Rating × ℕ,
      (((ratingPut p.2 p.1 :: if p.2 % 10000 = 0 then [smallPut p.1] else []).filter
        (Put.writes ratingsFamily)).map Put.row) = [Bytes.ofInt (BitVec.ofNat 32 p.2)] := by
    intro p
    rw [List.filter_cons_of_pos (ratingPut_writes _ _)]
    split
    · rw [List.filter_cons_of_neg (by simp [smallPut_writes])]
      rfl
    · rfl
  unfold putFromRandom
  rw [List.filter_flatMap, List.map_flatMap]
  simp only [hposition]
  rw [← List.map_eq_flatMap, ← hlength, List.range_eq_range', ← List.zipIdx_map_snd, List.map_map]
  rfl

/-- However many batches: one row for each position in a batch. -/
theorem length_keysOf_putBatches {numBatches : ℕ} (hpos : 0 < numBatches) {numRecords : ℕ}
    (hlt : numRecords < 2 ^ 31) (draws : ℕ → ℕ → Draw) :
    (HTable.keysOf ratingsFamily (putBatches numBatches numRecords draws)).length
      = numRecords + 1 := by
  have hnodup : ((List.range (numRecords + 1)).map fun i =>
      Bytes.ofInt (BitVec.ofNat 32 i)).Nodup := by
    refine List.Nodup.map_on ?_ List.nodup_range
    intro i hi j hj h
    have hi := List.mem_range.1 hi
    have hj := List.mem_range.1 hj
    exact (JavaInt.ofNat_inj (by omega) (by omega)).1 (Bytes.ofInt_injective h)
  have hperm : (((List.range numBatches).flatMap fun _ => (List.range (numRecords + 1)).map fun i =>
      Bytes.ofInt (BitVec.ofNat 32 i)).dedup).Perm
      ((List.range (numRecords + 1)).map fun i => Bytes.ofInt (BitVec.ofNat 32 i)) := by
    refine (List.perm_ext_iff_of_nodup (List.nodup_dedup _) hnodup).2 fun k => ?_
    rw [List.mem_dedup, List.mem_flatMap]
    exact ⟨fun ⟨_, _, hk⟩ => hk, fun hk => ⟨0, List.mem_range.2 hpos, hk⟩⟩
  unfold putBatches
  rw [HTable.length_keysOf_putAll, List.filter_flatMap, List.map_flatMap]
  simp only [map_row_putFromRandom]
  rw [hperm.length_eq, List.length_map, List.length_range]

/-- The batches leave as many rows as records only for two batches of one record. -/
theorem putBatches_rows_iff (numBatches numRecords : ℕ) (hbatches : 1 ≤ numBatches)
    (hrecords : 1 ≤ numRecords) (hlt : numBatches * numRecords < 2 ^ 31)
    (draws : ℕ → ℕ → Draw) :
    (HTable.keysOf ratingsFamily (putBatches numBatches numRecords draws)).length
        = numBatches * numRecords ↔ numBatches = 2 ∧ numRecords = 1 := by
  have hle : numRecords ≤ numBatches * numRecords := Nat.le_mul_of_pos_left _ hbatches
  rw [length_keysOf_putBatches hbatches (by omega)]
  refine ⟨fun h => ?_, fun h => by rw [h.1, h.2]⟩
  rcases (by omega : numBatches = 1 ∨ numBatches = 2 ∨ 3 ≤ numBatches) with rfl | rfl | hmany
  · omega
  · omega
  · have := Nat.mul_le_mul_right numRecords hmany
    omega

/-- Two batches of one record. -/
theorem putBatches_rows_iff_two :
    (HTable.keysOf ratingsFamily (putBatches 2 (1 : ℕ) fun _ _ => ⟨0, 0, 0⟩)).length = 2 * 1 ↔
      2 = 2 ∧ 1 = 1 :=
  putBatches_rows_iff 2 1 (by decide) (by decide) (by decide) fun _ _ => ⟨0, 0, 0⟩

/-- The script's own batches: 50 of a million records each. -/
theorem putBatches_fifty :
    (HTable.keysOf ratingsFamily (putBatches 50 (1000 * 1000 : ℕ) fun _ _ => ⟨0, 0, 0⟩)).length
        = 1000001 ∧
      (HTable.keysOf ratingsFamily (putBatches 50 (1000 * 1000 : ℕ) fun _ _ => ⟨0, 0, 0⟩)).length
        ≠ 50 * (1000 * 1000) := by
  have hrows := length_keysOf_putBatches (by decide : 0 < 50) (by decide : 1000 * 1000 < 2 ^ 31)
    fun _ _ => ⟨0, 0, 0⟩
  refine ⟨hrows, ?_⟩
  rw [hrows]
  decide

end HadoopExamples.PutRandomRecords
