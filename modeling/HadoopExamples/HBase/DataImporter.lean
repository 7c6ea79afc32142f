import HadoopExamples.Platform.Thrift

set_option autoImplicit false

/-! # The data importer of the flush test

`DataImporter.import_data` writes numbered rows to `bigcf` in batches, and one row to `smallcf`
after each batch. It sends a batch before it adds the row that fills it up, so a batch ends in a
number just below a multiple of the batch size; `importData_rows` says that nothing is lost or
repeated by this, and what is there if a call raises. -/

namespace HadoopExamples.HBase

open Python Thrift

/-! ## The code -/

structure DataImporter where
  tableName : PyString := "numbers".toList
  maxRows : ℕ := 1000 * 1000
  batchSize : ℕ := 10 * 1000

namespace DataImporter

/-- `"%s of %s" % (fc, locale.format("%d", self.max_rows, grouping=True))` -/
def progress (importer : DataImporter) (currNumber : ℕ) : PyString :=
  localeFormat currNumber ++ " of ".toList ++ localeFormat importer.maxRows

def batchPut (importer : DataImporter) (raises : Raises) (currNumber : ℕ)
    (rowBatch : List BatchMutation) : Script Unit := do
  print (importer.progress currNumber)
  mutateRows raises importer.tableName rowBatch

def putOneRecord (importer : DataImporter) (raises : Raises) (currNumber : ℕ) : Script Unit :=
  mutateRow raises importer.tableName (str currNumber)
    [⟨"smallcf:some_number".toList, str currNumber⟩]

/-- The row of a number in the big family. -/
def bigRow (currNumber : ℕ) : BatchMutation :=
  ⟨str currNumber, [⟨"bigcf:some_number".toList, times (str currNumber) 100⟩]⟩

/-- The batch that a pass of the loop goes on with: a new one if it has sent the old one. -/
def flush (importer : DataImporter) (raises : Raises) (currNumber : ℕ)
    (rowBatch : List BatchMutation) : Script (List BatchMutation) := do
  if importer.batchSize = 0 then throw .zeroDivisionError
  else if currNumber % importer.batchSize = 0 then
    importer.batchPut raises currNumber rowBatch
    importer.putOneRecord raises currNumber
    return []
  else return rowBatch

/-- One pass of the loop; `curr_number` keeps its last value after the loop. -/
def addRow (importer : DataImporter) (raises : Raises) (vars : Option ℕ × List BatchMutation)
    (currNumber : ℕ) : Script (Option ℕ × List BatchMutation) := do
  let rowBatch ← importer.flush raises currNumber vars.2
  return (some currNumber, rowBatch ++ [bigRow currNumber])

def importData (importer : DataImporter) (raises : Raises) : Script Unit := do
  let vars ← (List.range' 1 (importer.maxRows - 1)).foldlM (importer.addRow raises) (none, [])
  -- one final batch
  match vars.1 with
  | none => throw .unboundLocalError
  | some currNumber =>
    importer.batchPut raises currNumber vars.2
    importer.putOneRecord raises currNumber

/-! ## What it should write -/

def bigcf : PyString := "bigcf".toList

def smallcf : PyString := "smallcf".toList

/-- The rows "1" to `str k`, each with one cell: the number a hundred times, one behind the other. -/
def numberedRows (k : ℕ) : List BatchMutation :=
  (List.range k).map fun i =>
    { row := str (i + 1)
      mutations := [{ column := "bigcf:some_number".toList
                      value := (List.replicate 100 (str (i + 1))).flatten }] }

/-- The batches are, one after the other, the rows of the numbers from 1 to `k`, and these are all
    rows in the big family. -/
structure Wrote (importer : DataImporter) (k : ℕ) (calls : List Thrift.Call) : Prop where
  rows : (rowBatches calls).flatten = numberedRows k
  big : rowsOf bigcf calls = numberedRows k
  bounded : ∀ rowBatch ∈ rowBatches calls, rowBatch.length ≤ importer.batchSize

/-- The small family has a row for each multiple of the batch size below `max_rows`, and one for
    the last number. -/
def SmallRows (importer : DataImporter) (calls : List Thrift.Call) : Prop :=
  ∀ row, row ∈ (rowsOf smallcf calls).map BatchMutation.row ↔
    ∃ n, row = str n ∧ 1 ≤ n ∧ n < importer.maxRows ∧
      (importer.batchSize ∣ n ∨ n = importer.maxRows - 1)

/-! ## The loop -/

section Loop

variable {importer : DataImporter} {raises : Raises} {n : ℕ} {rowBatch : List BatchMutation}
  {small : List PyString}

/-- The rows of the loop for the numbers from 1 to `k`. -/
def bigRows (k : ℕ) : List BatchMutation := (List.range' 1 k).map bigRow

theorem bigRows_eq (k : ℕ) : bigRows k = numberedRows k := by
  unfold bigRows numberedRows
  rw [List.range'_eq_map_range, List.map_map]
  refine List.map_congr_left fun i _ => ?_
  show bigRow (1 + i) = _
  rw [Nat.add_comm]
  rfl

theorem bigRows_succ (n : ℕ) : bigRows (n + 1) = bigRows n ++ [bigRow (n + 1)] := by
  unfold bigRows
  rw [List.range'_concat, List.map_append, Nat.one_mul, Nat.add_comm 1 n]
  rfl

/-- The rows that come before some others of `bigRows n`. -/
theorem eq_bigRows_of_append {rows rest : List BatchMutation} (h : rows ++ rest = bigRows n) :
    ∃ k ≤ n, rows = bigRows k := by
  induction n generalizing rest with
  | zero =>
    refine ⟨0, Nat.le_refl 0, ?_⟩
    exact (List.append_eq_nil_iff.1 h).1
  | succ n ih =>
    rcases List.eq_nil_or_concat rest with rfl | ⟨rest, r, rfl⟩
    · exact ⟨n + 1, Nat.le_refl _, by rw [← h, List.append_nil]⟩
    · rw [bigRows_succ, List.concat_eq_append, ← List.append_assoc] at h
      obtain ⟨k, hk, hrows⟩ := ih (List.append_inj_left' h rfl)
      exact ⟨k, Nat.le_succ_of_le hk, hrows⟩

/-- Where the loop is: the numbers up to `n` are sent, or wait in the batch. -/
structure Sent (importer : DataImporter) (n : ℕ) (rowBatch : List BatchMutation)
    (small : List PyString) (s : Session) : Prop where
  completed : s.completed = s.made
  rows : (rowBatches s.made).flatten ++ rowBatch = bigRows n
  big : rowsOf bigcf s.made = (rowBatches s.made).flatten
  bounded : ∀ rowBatch ∈ rowBatches s.made, rowBatch.length ≤ importer.batchSize
  small : (rowsOf smallcf s.made).map BatchMutation.row = small

/-- Where the script is when a call has raised: the calls before it have written the first rows, and
    no batch was too long, that of the call included. -/
structure Failed (importer : DataImporter) (raises : Raises) (e : PyException) (s : Session) :
    Prop where
  raised : Raised raises e
  wrote : ∃ k < importer.maxRows, importer.Wrote k s.completed
  bounded : ∀ rowBatch ∈ rowBatches s.made, rowBatch.length ≤ importer.batchSize

theorem Sent.wrote {s : Session} (h : importer.Sent n rowBatch small s) (hn : n < importer.maxRows) :
    ∃ k < importer.maxRows, importer.Wrote k s.completed := by
  obtain ⟨k, hk, hrows⟩ := eq_bigRows_of_append h.rows
  rw [bigRows_eq] at hrows
  rw [h.completed]
  exact ⟨k, by omega, hrows, h.big.trans hrows, h.bounded⟩

/-- Rows of the big family only. -/
theorem filter_bigRows {rows : List BatchMutation} (h : ∀ r ∈ rows, ∃ k, r = bigRow k) :
    rows.filter (fun r => r.mutations.any (·.family = bigcf)) = rows ∧
      rows.filter (fun r => r.mutations.any (·.family = smallcf)) = [] := by
  have hfamily : ∀ k, (bigRow k).mutations.any (·.family = bigcf) = true ∧
      (bigRow k).mutations.any (·.family = smallcf) = false := fun _ => ⟨rfl, rfl⟩
  refine ⟨List.filter_eq_self.2 fun r hr => ?_, List.filter_eq_nil_iff.2 fun r hr => ?_⟩
  · obtain ⟨k, rfl⟩ := h r hr
    exact (hfamily k).1
  · obtain ⟨k, rfl⟩ := h r hr
    rw [(hfamily k).2]
    exact Bool.false_ne_true

theorem triple_batchPut (currNumber : ℕ) (hn : n < importer.maxRows)
    (hbatch : rowBatch.length ≤ importer.batchSize) :
    Hoare.Triple (importer.Sent n rowBatch small) (importer.batchPut raises currNumber rowBatch)
      (fun _ => importer.Sent n [] small) (importer.Failed raises) := by
  have hbounded : ∀ s, importer.Sent n rowBatch small s → ∀ b ∈ rowBatches (s.made ++
      [.mutateRows importer.tableName rowBatch]), b.length ≤ importer.batchSize := by
    intro s hs b hb
    rw [rowBatches_mutateRows, List.mem_append, List.mem_singleton] at hb
    rcases hb with hb | rfl
    · exact hs.bounded b hb
    · exact hbatch
  unfold batchPut
  refine Hoare.Triple.bind (Q := fun _ => importer.Sent n rowBatch small) (triple_print ?_) fun _ =>
    triple_send ?_ ?_
  · exact fun s hs => ⟨hs.completed, hs.rows, hs.big, hs.bounded, hs.small⟩
  · intro s message hs hraise
    exact ⟨⟨_, _, message, hraise, rfl⟩, hs.wrote hn, hbounded s hs⟩
  · intro s hs
    have hbig : ∀ r ∈ rowBatch, ∃ k, r = bigRow k := by
      intro r hr
      have hmem : r ∈ bigRows n := hs.rows ▸ List.mem_append_right _ hr
      obtain ⟨k, _, hk⟩ := List.mem_map.1 hmem
      exact ⟨k, hk.symm⟩
    obtain ⟨hall, hnone⟩ := filter_bigRows hbig
    refine ⟨?_, ?_, ?_, hbounded s hs, ?_⟩
    · show s.completed ++ _ = s.made ++ _
      rw [hs.completed]
    · show (rowBatches (s.made ++ _)).flatten ++ [] = bigRows n
      simpa using hs.rows
    · show rowsOf bigcf (s.made ++ _) = (rowBatches (s.made ++ _)).flatten
      rw [rowsOf_concat, rowBatches_mutateRows, hs.big]
      simp [Call.rows, hall]
    · show (rowsOf smallcf (s.made ++ _)).map BatchMutation.row = small
      rw [rowsOf_concat]
      simp [Call.rows, hnone, hs.small]

theorem triple_putOneRecord (currNumber : ℕ) (hn : n < importer.maxRows) :
    Hoare.Triple (importer.Sent n [] small) (importer.putOneRecord raises currNumber)
      (fun _ => importer.Sent n [] (small ++ [str currNumber])) (importer.Failed raises) := by
  unfold putOneRecord
  refine triple_send ?_ ?_
  · intro s message hs hraise
    refine ⟨⟨_, _, message, hraise, rfl⟩, hs.wrote hn, ?_⟩
    simpa using hs.bounded
  · intro s hs
    refine ⟨?_, ?_, ?_, ?_, ?_⟩
    · show s.completed ++ _ = s.made ++ _
      rw [hs.completed]
    · simpa using hs.rows
    · show rowsOf bigcf (s.made ++ _) = (rowBatches (s.made ++ _)).flatten
      rw [rowsOf_concat, rowBatches_mutateRow, hs.big]
      exact List.append_nil _
    · simpa using hs.bounded
    · show (rowsOf smallcf (s.made ++ _)).map BatchMutation.row = small ++ [str currNumber]
      rw [rowsOf_concat, List.map_append, hs.small]
      rfl

/-- The rows of the small family that the loop writes for the numbers up to `n`. -/
def smallRows (importer : DataImporter) (n : ℕ) : List PyString :=
  ((List.range' 1 n).filter fun m => m % importer.batchSize = 0).map str

theorem smallRows_succ (importer : DataImporter) (n : ℕ) :
    importer.smallRows (n + 1) = importer.smallRows n ++
      if (n + 1) % importer.batchSize = 0 then [str (n + 1)] else [] := by
  unfold smallRows
  rw [List.range'_1_concat, List.filter_append, List.map_append, Nat.add_comm 1 n,
    List.filter_singleton]
  by_cases hmod : (n + 1) % importer.batchSize = 0 <;> simp [hmod]

/-- A batch that is sent, or waits for the next number, has no more rows than the number leaves
    rest. -/
theorem triple_flush (hbatch : 1 ≤ importer.batchSize) (hn : n + 1 < importer.maxRows)
    (hlength : rowBatch.length ≤ n % importer.batchSize + 1) :
    Hoare.Triple (importer.Sent n rowBatch (importer.smallRows n))
      (importer.flush raises (n + 1) rowBatch)
      (fun rowBatch s => importer.Sent n rowBatch (importer.smallRows (n + 1)) s ∧
        rowBatch.length ≤ (n + 1) % importer.batchSize)
      (importer.Failed raises) := by
  have hmod := Nat.mod_lt n hbatch
  unfold flush
  rw [if_neg (by omega), smallRows_succ]
  split
  · refine Hoare.Triple.bind (triple_batchPut (n + 1) (by omega) (by omega)) fun _ =>
      Hoare.Triple.bind (triple_putOneRecord (n + 1) (by omega)) fun _ => Hoare.Triple.pure ?_
    exact fun s hs => ⟨hs, Nat.zero_le _⟩
  · rename_i hrest
    have hnext : (n + 1) % importer.batchSize = n % importer.batchSize + 1 := by
      rcases Nat.lt_or_ge (n % importer.batchSize + 1) importer.batchSize with hlt | hge
      · rw [← Nat.mod_add_mod, Nat.mod_eq_of_lt hlt]
      · have hfull : n % importer.batchSize + 1 = importer.batchSize := by omega
        rw [← Nat.mod_add_mod, hfull, Nat.mod_self] at hrest
        exact absurd rfl hrest
    rw [List.append_nil]
    exact Hoare.Triple.pure fun s hs => ⟨hs, by omega⟩

/-- What holds after the numbers in `done`. -/
def LoopInv (importer : DataImporter) (done : List ℕ) (vars : Option ℕ × List BatchMutation)
    (s : Session) : Prop :=
  vars.1 = done.getLast? ∧
    importer.Sent done.length vars.2 (importer.smallRows done.length) s ∧
    vars.2.length ≤ done.length % importer.batchSize + 1

theorem triple_addRow (raises : Raises) (hbatch : 1 ≤ importer.batchSize) {done todo : List ℕ} {x : ℕ}
    (hl : List.range' 1 (importer.maxRows - 1) = done ++ x :: todo)
    (vars : Option ℕ × List BatchMutation) :
    Hoare.Triple (importer.LoopInv done vars) (importer.addRow raises vars x)
      (importer.LoopInv (done ++ [x])) (importer.Failed raises) := by
  obtain ⟨hx, hless⟩ := Hoare.eq_of_range'_eq_append hl
  have hn : done.length + 1 < importer.maxRows := by omega
  rw [Nat.add_comm] at hx
  subst hx
  intro s hs
  obtain ⟨_, hsent, hlength⟩ := hs
  unfold addRow
  refine Hoare.Triple.bind (triple_flush hbatch hn hlength) (fun rowBatch => ?_) s hsent
  refine Hoare.Triple.pure fun s hs => ⟨?_, ?_, ?_⟩
  · rw [List.getLast?_concat]
  · rw [List.length_append, List.length_singleton]
    refine ⟨hs.1.completed, ?_, hs.1.big, hs.1.bounded, hs.1.small⟩
    rw [← List.append_assoc, hs.1.rows, bigRows_succ]
  · rw [List.length_append, List.length_append, List.length_singleton, List.length_singleton]
    exact Nat.succ_le_succ hs.2

theorem triple_importData (raises : Raises) (hrows : 2 ≤ importer.maxRows)
    (hbatch : 1 ≤ importer.batchSize) :
    Hoare.Triple (· = Session.start) (importer.importData raises)
      (fun _ => importer.Sent (importer.maxRows - 1) []
        (importer.smallRows (importer.maxRows - 1) ++ [str (importer.maxRows - 1)]))
      (importer.Failed raises) := by
  have hloop := Hoare.Triple.foldlM importer.LoopInv
    (fun done x todo vars hl => triple_addRow raises hbatch hl vars) (none, [])
  unfold importData
  refine Hoare.Triple.bind (hloop.weaken ?_ (fun _ _ h => h) fun _ _ h => h) fun vars => ?_
  · intro s hs
    subst hs
    exact ⟨rfl, ⟨rfl, rfl, rfl, nofun, rfl⟩, Nat.zero_le _⟩
  · intro s hs
    obtain ⟨hlast, hsent, hlength⟩ := hs
    have hmod := Nat.mod_lt (importer.maxRows - 1) hbatch
    rw [List.getLast?_range', if_neg (by omega)] at hlast
    rw [List.length_range'] at hsent hlength
    rw [hlast]
    have hnumber : 1 + (importer.maxRows - 1) - 1 = importer.maxRows - 1 := by omega
    rw [hnumber]
    exact Hoare.Triple.bind (triple_batchPut _ (by omega) (by omega))
      (fun _ => triple_putOneRecord _ (by omega)) s hsent

theorem mem_smallRows {row : PyString} :
    row ∈ importer.smallRows n ↔
      ∃ m, row = str m ∧ 1 ≤ m ∧ m ≤ n ∧ importer.batchSize ∣ m := by
  unfold smallRows
  simp only [List.mem_map, List.mem_filter, List.mem_range'_1, decide_eq_true_eq,
    ← Nat.dvd_iff_mod_eq_zero]
  constructor
  · intro hrow
    obtain ⟨m, ⟨⟨hpos, hlt⟩, hdvd⟩, rfl⟩ := hrow
    exact ⟨m, rfl, hpos, by omega, hdvd⟩
  · intro hrow
    obtain ⟨m, rfl, hpos, hle, hdvd⟩ := hrow
    exact ⟨m, ⟨⟨hpos, by omega⟩, hdvd⟩, rfl⟩

theorem Sent.smallRows {s : Session} (hrows : 2 ≤ importer.maxRows)
    (h : importer.Sent n rowBatch
      (importer.smallRows (importer.maxRows - 1) ++ [str (importer.maxRows - 1)]) s) :
    importer.SmallRows s.made := by
  intro row
  rw [h.small, List.mem_append, mem_smallRows, List.mem_singleton]
  constructor
  · intro hrow
    rcases hrow with ⟨m, rfl, hpos, hle, hdvd⟩ | rfl
    · exact ⟨m, rfl, hpos, by omega, Or.inl hdvd⟩
    · exact ⟨_, rfl, by omega, by omega, Or.inr rfl⟩
  · intro hrow
    obtain ⟨m, rfl, hpos, hlt, hdvd | rfl⟩ := hrow
    · exact Or.inl ⟨m, rfl, hpos, by omega, hdvd⟩
    · exact Or.inr rfl

end Loop

/-- A run that completes has sent every row once and in order, in batches that are not too long, and
    the rows of the small family; a run in which a call raises has written the first rows of the
    big family and no others; and a run can only stop because a call raises. -/
theorem importData_rows (importer : DataImporter) (hrows : 2 ≤ importer.maxRows)
    (hbatch : 1 ≤ importer.batchSize) (raises : Raises) :
    (∀ s, importer.importData raises Session.start = .ok () s →
      importer.Wrote (importer.maxRows - 1) s.made ∧ importer.SmallRows s.made) ∧
    (∀ e s, importer.importData raises Session.start = .error e s →
      importer.Failed raises e s) ∧
    ((∀ calls call, raises calls call = none) →
      ∃ s, importer.importData raises Session.start = .ok () s) := by
  have hrun := triple_importData raises hrows hbatch
  refine ⟨?_, ?_, ?_⟩
  · intro s hs
    have hsent := hrun.of_ok rfl hs
    have hall := hsent.rows
    rw [List.append_nil, bigRows_eq] at hall
    exact ⟨⟨hall, hsent.big.trans hall, hsent.bounded⟩, hsent.smallRows hrows⟩
  · intro e s hs
    exact hrun.of_error rfl hs
  · intro hnever
    obtain ⟨_, s, hs, _⟩ := hrun.returns rfl fun e s hfailed => not_raised hnever e hfailed.raised
    exact ⟨s, hs⟩

/-- Four rows in batches of two. -/
theorem importData_rows_four :
    ∃ s, importData { maxRows := 5, batchSize := 2 } (fun _ _ => none) Session.start = .ok () s ∧
      Wrote { maxRows := 5, batchSize := 2 } 4 s.made ∧
      SmallRows { maxRows := 5, batchSize := 2 } s.made := by
  obtain ⟨hok, _, hreturns⟩ := importData_rows { maxRows := 5, batchSize := 2 } (by decide)
    (by decide) fun _ _ => none
  obtain ⟨s, hs⟩ := hreturns fun _ _ => rfl
  exact ⟨s, hs, hok s hs⟩

end DataImporter

end HadoopExamples.HBase
