import Mathlib.Algebra.Order.BigOperators.Group.List
import Mathlib.Algebra.Order.Ring.Nat
import HadoopExamples.Library.Decimal
import HadoopExamples.Platform.HBase

set_option autoImplicit false

/-! # Blasting a table

`HBaseUtility.blast` puts rows under the time it started at plus a running number. It makes one put
fewer than it is asked for, so blasts are complete only if none is asked for anything
(`blasts_complete_iff`); and of blasts that are faster than one row a millisecond, a later one
overwrites rows of an earlier one (`createsRows_iff`). -/

namespace HadoopExamples.HBaseBlast

/-- One call of `blast`: its number of records, and the time that it reads from the clock. -/
structure Blast where
  startTime : JavaLong
  numRecords : JavaInt

/-- The key of the put number `timez`; the sum is a `long`. -/
def Blast.row (call : Blast) (timez : JavaInt) : Bytes :=
  Bytes.ofString (Decimal.ofInt (timez.signExtend 64 + call.startTime).toInt)

/-- The puts of a call, none of which fails. -/
def Blast.puts (call : Blast) : List Put :=
  -- `for (int timez = 0; timez < numRecords - 1; timez++)`
  (List.range (call.numRecords - 1).toInt.toNat).map fun i =>
    let timez : JavaInt := BitVec.ofNat 32 i
    { row := call.row timez
      cells := [(⟨Bytes.ofString "cf1".toList, Bytes.ofString "col1".toList⟩,
        Bytes.ofInt timez)] }

/-- The table that calls make of an empty one, one after the other. -/
def blasts (calls : List Blast) : HTable := HTable.putAll (calls.flatMap Blast.puts)

/-! ## Too few puts -/

theorem Blast.length_puts {call : Blast} (h : 0 ≤ call.numRecords.toInt) :
    call.puts.length = call.numRecords.toInt.toNat - 1 := by
  unfold puts
  rw [List.length_map, List.length_range, JavaInt.toInt_sub_one h]
  omega

theorem length_flatMap_puts {calls : List Blast} (h : ∀ call ∈ calls, 0 ≤ call.numRecords.toInt) :
    (calls.flatMap Blast.puts).length
      = (calls.map fun call => call.numRecords.toInt.toNat - 1).sum := by
  rw [List.length_flatMap]
  exact congrArg List.sum (List.map_congr_left fun call hcall => Blast.length_puts (h call hcall))

theorem length_keys_blasts_le (calls : List Blast) :
    (blasts calls).keys.length ≤ (calls.flatMap Blast.puts).length := by
  unfold blasts
  rw [HTable.length_keys_putAll]
  exact (List.dedup_sublist _).length_le.trans_eq (List.length_map _)

/-- Blasts leave as many rows as they were asked for, each put making a row of its own, only if they
    were asked for none. -/
theorem blasts_complete_iff (calls : List Blast) (h : ∀ call ∈ calls, 0 ≤ call.numRecords.toInt) :
    ((blasts calls).keys.length = (calls.map fun call => call.numRecords.toInt.toNat).sum ∧
      HTable.CreatesRows (calls.flatMap Blast.puts)) ↔
      ∀ call ∈ calls, call.numRecords.toInt = 0 := by
  have hlength := length_flatMap_puts h
  constructor
  · intro ⟨hrows, _⟩ call hcall
    by_contra hasked
    have hfewer : (calls.map fun call => call.numRecords.toInt.toNat - 1).sum
        < (calls.map fun call => call.numRecords.toInt.toNat).sum := by
      refine List.sum_lt_sum _ _ (fun call _ => Nat.sub_le _ 1) ⟨call, hcall, ?_⟩
      have := h call hcall
      omega
    have hle := length_keys_blasts_le calls
    omega
  · intro hzero
    have hsum : ∀ f : ℕ → ℕ, f 0 = 0 →
        (calls.map fun call => f call.numRecords.toInt.toNat).sum = 0 := by
      intro f hf
      refine List.sum_eq_zero fun n hn => ?_
      obtain ⟨call, hcall, rfl⟩ := List.mem_map.1 hn
      rw [hzero call hcall]
      exact hf
    have hnone : calls.flatMap Blast.puts = [] := by
      rw [← List.length_eq_zero_iff, hlength]
      exact hsum (· - 1) rfl
    have hasked : (calls.map fun call => call.numRecords.toInt.toNat).sum = 0 := hsum id rfl
    unfold blasts
    rw [hnone, hasked]
    exact ⟨rfl, trivial⟩

/-- Of a blast for nothing and one for three rows, the second is the incomplete one. -/
theorem blasts_complete_iff_two :
    ¬ ((blasts [⟨1000, 0⟩, ⟨1001, 3⟩]).keys.length
        = (([⟨1000, 0⟩, ⟨1001, 3⟩] : List Blast).map fun call => call.numRecords.toInt.toNat).sum ∧
      HTable.CreatesRows (([⟨1000, 0⟩, ⟨1001, 3⟩] : List Blast).flatMap Blast.puts)) :=
  fun hcomplete =>
    absurd ((blasts_complete_iff [⟨1000, 0⟩, ⟨1001, 3⟩] (by decide)).1 hcomplete) (by decide)

/-- One blast for one row makes none. -/
theorem blasts_one_row :
    (blasts [⟨1000, 1⟩]).keys.length = 0 ∧
      ¬ ((blasts [⟨1000, 1⟩]).keys.length
          = (([⟨1000, 1⟩] : List Blast).map fun call => call.numRecords.toInt.toNat).sum ∧
        HTable.CreatesRows (([⟨1000, 1⟩] : List Blast).flatMap Blast.puts)) := by
  have hrows : (blasts [⟨1000, 1⟩]).keys.length = 0 := by decide +kernel
  refine ⟨hrows, ?_⟩
  intro ⟨hasked, _⟩
  rw [hrows] at hasked
  exact absurd hasked (by decide)

/-! ## Overwritten rows -/

/-- While the clock is not near the end of time, the keys of a call are the decimal texts of
    consecutive numbers. -/
theorem Blast.map_row_puts {call : Blast} (h : 0 ≤ call.numRecords.toInt)
    (hlong : call.startTime.toInt + call.numRecords.toInt < 2 ^ 63) :
    call.puts.map Put.row = (List.range (call.numRecords.toInt.toNat - 1)).map fun (i : ℕ) =>
      Bytes.ofString (Decimal.ofInt (call.startTime.toInt + i)) := by
  have hlt : call.numRecords.toInt < 2 ^ 31 := BitVec.toInt_lt
  have hstart : -2 ^ 63 ≤ call.startTime.toInt := BitVec.le_toInt _
  have hcount : (call.numRecords - 1).toInt.toNat = call.numRecords.toInt.toNat - 1 := by
    rw [JavaInt.toInt_sub_one h]
    omega
  unfold puts
  rw [List.map_map, hcount]
  refine List.map_congr_left fun i hi => ?_
  have hi := List.mem_range.1 hi
  show call.row (BitVec.ofNat 32 i) = _
  unfold row
  rw [BitVec.toInt_add, BitVec.toInt_signExtend_of_le (by omega), JavaInt.toInt_ofNat (by omega),
    Int.add_comm, Int.bmod_eq_of_le (by omega) (by omega)]

theorem key_injective (start start' : ℤ) (i j : ℕ) :
    Bytes.ofString (Decimal.ofInt (start + i)) = Bytes.ofString (Decimal.ofInt (start' + j)) ↔
      start + i = start' + j :=
  (Bytes.ofString_injective.comp Decimal.ofInt_injective).eq_iff

/-- A blast and a later one share no key exactly if the first has used its last one before the
    second starts, or one of them makes no puts. -/
theorem disjoint_rows_iff {a b : Blast} (ha : 0 ≤ a.numRecords.toInt)
    (hb : 0 ≤ b.numRecords.toInt) (halong : a.startTime.toInt + a.numRecords.toInt < 2 ^ 63)
    (hblong : b.startTime.toInt + b.numRecords.toInt < 2 ^ 63)
    (hle : a.startTime.toInt ≤ b.startTime.toInt) :
    List.Disjoint (a.puts.map Put.row) (b.puts.map Put.row) ↔
      a.numRecords.toInt ≤ 1 ∨ b.numRecords.toInt ≤ 1 ∨
        a.startTime.toInt + (a.numRecords.toInt - 1) ≤ b.startTime.toInt := by
  rw [Blast.map_row_puts ha halong, Blast.map_row_puts hb hblong]
  constructor
  · intro hdisjoint
    by_contra hnot
    -- the first key of the second call
    have hfirst : Bytes.ofString (Decimal.ofInt (a.startTime.toInt
        + ((b.startTime.toInt - a.startTime.toInt).toNat : ℕ)))
        = Bytes.ofString (Decimal.ofInt (b.startTime.toInt + (0 : ℕ))) := by
      rw [key_injective]
      omega
    refine hdisjoint (List.mem_map.2 ⟨(b.startTime.toInt - a.startTime.toInt).toNat, ?_, hfirst⟩)
      (List.mem_map.2 ⟨0, ?_, rfl⟩)
    · rw [List.mem_range]
      omega
    · rw [List.mem_range]
      omega
  · intro hspaced k hka hkb
    obtain ⟨i, hi, rfl⟩ := List.mem_map.1 hka
    obtain ⟨j, hj, heq⟩ := List.mem_map.1 hkb
    rw [key_injective] at heq
    have hi := List.mem_range.1 hi
    have hj := List.mem_range.1 hj
    omega

/-- Of blasts on a clock that does not go back every put makes a row of its own exactly if each
    takes a millisecond for every put before the next one with puts starts. -/
theorem createsRows_iff {calls : List Blast} (h : ∀ call ∈ calls, 0 ≤ call.numRecords.toInt)
    (hlong : ∀ call ∈ calls, call.startTime.toInt + call.numRecords.toInt < 2 ^ 63)
    (hclock : calls.Pairwise fun a b => a.startTime.toInt ≤ b.startTime.toInt) :
    HTable.CreatesRows (calls.flatMap Blast.puts) ↔ calls.Pairwise fun a b =>
      a.numRecords.toInt ≤ 1 ∨ b.numRecords.toInt ≤ 1 ∨
        a.startTime.toInt + (a.numRecords.toInt - 1) ≤ b.startTime.toInt := by
  have hcall : ∀ call ∈ calls, (call.puts.map Put.row).Nodup := by
    intro call hcall
    rw [Blast.map_row_puts (h call hcall) (hlong call hcall)]
    refine List.nodup_range.map fun i j heq => ?_
    have := (key_injective _ _ i j).1 heq
    omega
  rw [HTable.createsRows_iff, List.map_flatMap, List.nodup_flatMap, and_iff_right hcall]
  refine ⟨fun hdisjoint => ?_, fun hspaced => ?_⟩
  · refine (hclock.and hdisjoint).imp_of_mem fun ha hb hab => ?_
    exact (disjoint_rows_iff (h _ ha) (h _ hb) (hlong _ ha) (hlong _ hb) hab.1).1 hab.2
  · refine (hclock.and hspaced).imp_of_mem fun ha hb hab => ?_
    exact (disjoint_rows_iff (h _ ha) (h _ hb) (hlong _ ha) (hlong _ hb) hab.1).2 hab.2

end HadoopExamples.HBaseBlast
