import HadoopExamples.Library.Split
import HadoopExamples.Platform.Thrift

set_option autoImplicit false

/-! # The loader of random words

The script sends one cell for each number, in batches, under a word that it draws anew for each
batch. Row keys of different words can be the same text, but a column ends in the number, which can
be read back behind the last `@`; `load_cells` says that no cell is lost or overwritten. -/

namespace HadoopExamples.RandomWords

open Python Thrift

/-! ## The code -/

/-- The greatest index of a word. -/
def max (words : List PyString) : ℤ := words.length - 1

/-- `random.randint(0, max)`: the number `drawn` of the sequence of draws. -/
def randint (draws : ℕ → ℕ) (drawn : ℕ) (max : ℤ) : Script ℕ :=
  if max < 0 then throw .valueError else pure (draws drawn)

/-- The variables of the loop, and how many numbers are drawn so far. -/
structure Vars where
  r : Option ℕ
  drawn : ℕ
  mutationsbatch : List BatchMutation

/-- `r`, if it is defined, and `words[r]`. -/
def drawnWord (words : List PyString) (r : Option ℕ) : Script (ℕ × PyString) :=
  match r with
  | none => throw .nameError
  | some r =>
    match words[r]? with
    | none => throw .indexError
    | some word => pure (r, word)

/-- The beginning of a pass: send the batch and draw a word for the next one. -/
def push (raises : Raises) (words : List PyString) (batchsize : ℕ) (draws : ℕ → ℕ) (vars : Vars)
    (x : ℕ) : Script Vars := do
  if batchsize = 0 then throw .zeroDivisionError
  else if x % batchsize = 0 then
    print ("Pushing ".toList ++ str x)
    mutateRows raises "words".toList vars.mutationsbatch
    let r ← randint draws vars.drawn (max words)
    return ⟨some r, vars.drawn + 1, []⟩
  else return vars

/-- The cell of the number `x`, when the word number `r` is drawn. -/
def cell (r : ℕ) (word : PyString) (x : ℕ) : BatchMutation :=
  ⟨word ++ str r, [⟨"w:".toList ++ word ++ "@".toList ++ str x, str 1⟩]⟩

def addCell (raises : Raises) (words : List PyString) (batchsize : ℕ) (draws : ℕ → ℕ)
    (vars : Vars) (x : ℕ) : Script Vars := do
  let vars ← push raises words batchsize draws vars x
  let (r, word) ← drawnWord words vars.r
  return { vars with mutationsbatch := vars.mutationsbatch ++ [cell r word x] }

/-- The script, for any word list, number of rows, batch size and sequence of draws. -/
def load (raises : Raises) (words : List PyString) (numRows batchsize : ℕ) (draws : ℕ → ℕ) :
    Script Unit := do
  let vars ← (List.range (numRows - 1)).foldlM (addCell raises words batchsize draws)
    ⟨none, 0, []⟩
  -- what is left in the last batch
  mutateRows raises "words".toList vars.mutationsbatch

/-! ## What it should send -/

/-- A cell as the table has it: its row key, its column and its value. -/
structure Cell where
  row : PyString
  column : PyString
  value : PyString
deriving DecidableEq

/-- All cells of the `mutateRows` calls, in their order. -/
def cells (calls : List Call) : List Cell :=
  (rowBatches calls).flatten.flatMap fun r =>
    r.mutations.map fun m => ⟨r.row, m.column, m.value⟩

/-- The cell that the number `x` should have: under the word that is drawn for its batch. -/
def cellOf (words : List PyString) (batchsize : ℕ) (draws : ℕ → ℕ) (x : ℕ) : Cell :=
  let r := draws (x / batchsize)
  let word := words.getD r []
  ⟨word ++ str r, "w:".toList ++ word ++ "@".toList ++ str x, str 1⟩

/-! ## The loop -/

theorem cells_mutateRows (calls : List Call) (rowBatch : List BatchMutation) :
    cells (calls ++ [.mutateRows "words".toList rowBatch])
      = cells calls ++ cells [.mutateRows "words".toList rowBatch] := by
  unfold cells
  rw [rowBatches_mutateRows, List.flatten_append, List.flatMap_append]
  rfl

section Loop

variable {raises : Raises} {words : List PyString} {batchsize : ℕ} {draws : ℕ → ℕ}

/-- The cells that wait in a batch. -/
def pending (mutationsbatch : List BatchMutation) : List Cell :=
  cells [.mutateRows "words".toList mutationsbatch]

theorem pending_concat (mutationsbatch : List BatchMutation) (r : ℕ) (word : PyString) (x : ℕ) :
    pending (mutationsbatch ++ [cell r word x]) = pending mutationsbatch ++
      [⟨word ++ str r, "w:".toList ++ word ++ "@".toList ++ str x, str 1⟩] := by
  simp [pending, cells, rowBatches, cell]

/-- The cells of the numbers below `n` are sent, or wait in the batch. -/
def Sent (words : List PyString) (batchsize : ℕ) (draws : ℕ → ℕ) (n : ℕ)
    (mutationsbatch : List BatchMutation) (s : Session) : Prop :=
  cells s.made ++ pending mutationsbatch = (List.range n).map (cellOf words batchsize draws)

/-- What holds after the numbers below `n`: there is a word for each batch begun, and the word of
    the last number is the one in `r`. -/
def LoopInv (words : List PyString) (batchsize : ℕ) (draws : ℕ → ℕ) (done : List ℕ) (vars : Vars)
    (s : Session) : Prop :=
  vars.drawn = (done.length + batchsize - 1) / batchsize ∧
    (done ≠ [] → vars.r = some (draws ((done.length - 1) / batchsize))) ∧
    Sent words batchsize draws done.length vars.mutationsbatch s

theorem triple_mutateRows (n : ℕ) (mutationsbatch : List BatchMutation) :
    Hoare.Triple (Sent words batchsize draws n mutationsbatch)
      (mutateRows raises "words".toList mutationsbatch)
      (fun _ => Sent words batchsize draws n []) (fun e _ => Raised raises e) := by
  refine triple_send (fun s message _ hraise => ⟨_, _, message, hraise, rfl⟩) fun s hs => ?_
  show cells (s.made ++ _) ++ [] = _
  rw [cells_mutateRows, List.append_nil]
  exact hs

/-- In range, the draw is defined and has a word. -/
theorem triple_drawnWord {r : ℕ} (hr : (r : ℤ) ≤ max words) {P : Session → Prop} :
    Hoare.Triple P (drawnWord words (some r)) (fun drawn s => drawn = (r, words.getD r []) ∧ P s)
      (fun e _ => Raised raises e) := by
  have hlt : r < words.length := by
    unfold max at hr
    omega
  have hword : words[r]? = some (words.getD r []) := by
    rw [List.getD_eq_getElem?_getD, List.getElem?_eq_getElem hlt]
    rfl
  simp only [drawnWord, hword]
  exact Hoare.Triple.pure fun s hs => ⟨rfl, hs⟩

theorem div_of_mod_eq_zero {n : ℕ} (hbatch : 1 ≤ batchsize) (hmod : n % batchsize = 0) :
    (n + batchsize - 1) / batchsize = n / batchsize := by
  have hquot := Nat.div_add_mod' n batchsize
  refine Nat.div_eq_of_lt_le (by omega) ?_
  rw [Nat.succ_mul]
  omega

theorem div_of_mod_ne_zero {n : ℕ} (hbatch : 1 ≤ batchsize) (hmod : n % batchsize ≠ 0) :
    (n - 1) / batchsize = n / batchsize ∧
      (n + batchsize - 1) / batchsize = n / batchsize + 1 := by
  have hquot := Nat.div_add_mod' n batchsize
  have hlt := Nat.mod_lt n hbatch
  have hlast : (n - 1) / batchsize = n / batchsize := by
    refine Nat.div_eq_of_lt_le (by omega) ?_
    rw [Nat.succ_mul]
    omega
  have hnext : n + batchsize - 1 = n - 1 + batchsize := by omega
  rw [hnext, Nat.add_div_right _ hbatch, hlast]
  exact ⟨rfl, rfl⟩

theorem triple_push (hbatch : 1 ≤ batchsize) (hdraws : ∀ k, (draws k : ℤ) ≤ max words)
    {done : List ℕ} (vars : Vars) :
    Hoare.Triple (LoopInv words batchsize draws done vars)
      (push raises words batchsize draws vars done.length)
      (fun vars s => vars.drawn = done.length / batchsize + 1 ∧
        vars.r = some (draws (done.length / batchsize)) ∧
        Sent words batchsize draws done.length vars.mutationsbatch s)
      (fun e _ => Raised raises e) := by
  intro s hs
  obtain ⟨hdrawn, hr, hsent⟩ := hs
  unfold push
  rw [if_neg (by omega)]
  by_cases hmod : done.length % batchsize = 0
  · have hwords : ¬ max words < 0 := by
      have := hdraws 0
      omega
    rw [if_pos hmod]
    refine Hoare.Triple.bind (Q := fun _ => Sent words batchsize draws done.length
      vars.mutationsbatch) (triple_print fun s hs => hs) (fun _ => ?_) s hsent
    refine Hoare.Triple.bind (triple_mutateRows done.length _) fun _ => ?_
    unfold randint
    rw [if_neg hwords, hdrawn, div_of_mod_eq_zero hbatch hmod]
    exact Hoare.Triple.bind (Q := fun r s => r = draws (done.length / batchsize) ∧
      Sent words batchsize draws done.length [] s) (Hoare.Triple.pure fun s hs => ⟨rfl, hs⟩)
      fun r => Hoare.Triple.pure fun s hs => ⟨rfl, by rw [hs.1], hs.2⟩
  · obtain ⟨hlast, hnext⟩ := div_of_mod_ne_zero hbatch hmod
    have hne : done ≠ [] := by
      intro hnil
      rw [hnil] at hmod
      exact hmod (Nat.zero_mod batchsize)
    rw [if_neg hmod]
    show vars.drawn = done.length / batchsize + 1 ∧ vars.r = some _ ∧ _
    exact ⟨hdrawn.trans hnext, (hr hne).trans (by rw [hlast]), hsent⟩

theorem triple_addCell (raises : Raises) (hbatch : 1 ≤ batchsize)
    (hdraws : ∀ k, (draws k : ℤ) ≤ max words) {n : ℕ} {done todo : List ℕ} {x : ℕ}
    (hl : List.range n = done ++ x :: todo) (vars : Vars) :
    Hoare.Triple (LoopInv words batchsize draws done vars)
      (addCell raises words batchsize draws vars x)
      (LoopInv words batchsize draws (done ++ [x])) (fun e _ => Raised raises e) := by
  rw [List.range_eq_range'] at hl
  obtain ⟨hx, _⟩ := Hoare.eq_of_range'_eq_append hl
  rw [Nat.zero_add] at hx
  subst hx
  unfold addCell
  refine Hoare.Triple.bind (triple_push hbatch hdraws vars) fun vars' => ?_
  intro s hs
  obtain ⟨hdrawn, hr, hsent⟩ := hs
  rw [hr]
  refine Hoare.Triple.bind (triple_drawnWord (hdraws _)) (fun drawn => Hoare.Triple.pure ?_) s hsent
  intro s hs
  obtain ⟨rfl, hsent⟩ := hs
  refine ⟨?_, fun _ => ?_, ?_⟩
  · rw [List.length_append, List.length_singleton, hdrawn, Nat.add_right_comm,
      Nat.add_sub_cancel, Nat.add_div_right _ hbatch]
  · rw [List.length_append, List.length_singleton, Nat.add_sub_cancel]
  · show cells s.made ++ pending (vars'.mutationsbatch ++ [_]) = _
    rw [pending_concat, ← List.append_assoc, hsent, List.length_append, List.length_singleton,
      List.range_succ, List.map_append]
    rfl

theorem triple_load (raises : Raises) (hbatch : 1 ≤ batchsize)
    (hdraws : ∀ k, (draws k : ℤ) ≤ max words) (numRows : ℕ) :
    Hoare.Triple (· = Session.start) (load raises words numRows batchsize draws)
      (fun _ => Sent words batchsize draws (numRows - 1) []) (fun e _ => Raised raises e) := by
  have hloop := Hoare.Triple.foldlM (l := List.range (numRows - 1))
    (LoopInv words batchsize draws)
    (fun done x todo vars hl => triple_addCell raises hbatch hdraws hl vars)
    ⟨none, 0, []⟩
  unfold load
  refine Hoare.Triple.bind (hloop.weaken ?_ (fun _ _ h => h) fun _ _ h => h) fun vars => ?_
  · intro s hs
    subst hs
    refine ⟨?_, fun hne => absurd rfl hne, rfl⟩
    show 0 = (0 + batchsize - 1) / batchsize
    rw [Nat.zero_add, Nat.div_eq_of_lt (by omega)]
  · refine (triple_mutateRows (numRows - 1) _).weaken ?_ (fun _ _ h => h) fun _ _ h => h
    intro s hs
    have hsent := hs.2.2
    rwa [List.length_range] at hsent

end Loop

/-- The column tells the number, whatever the word: no digit is an `@`. -/
theorem cellOf_column_injective (words : List PyString) (batchsize : ℕ) (draws : ℕ → ℕ) :
    Function.Injective fun x => (cellOf words batchsize draws x).column := by
  intro x x' h
  have hfree : ∀ n, '@' ∉ str n := by
    intro n hat
    exact absurd (isDigit_of_mem_str hat) (by decide)
  have hcolumn : ∀ n, (cellOf words batchsize draws n).column
      = "w:".toList ++ words.getD (draws (n / batchsize)) [] ++ '@' :: str n := by
    intro n
    unfold cellOf
    simp only [List.append_assoc]
    rfl
  simp only [hcolumn] at h
  exact str_injective (Split.eq_of_append_sep (hfree x) (hfree x') h)

/-- Whatever is drawn in range, a run that completes has sent one cell for each number but the
    last, in order, each under the word drawn for its batch, and no two of them in one row and
    column; and a run can only stop because a call raises, so there is a word whenever one is
    used. -/
theorem load_cells (words : List PyString) (numRows batchsize : ℕ) (hbatch : 1 ≤ batchsize)
    (draws : ℕ → ℕ) (hdraws : ∀ k, (draws k : ℤ) ≤ max words) (raises : Raises) :
    (∀ s, load raises words numRows batchsize draws Session.start = .ok () s →
      cells s.made = (List.range (numRows - 1)).map (cellOf words batchsize draws) ∧
      ((cells s.made).map fun c => (c.row, c.column)).Nodup) ∧
    (∀ e s, load raises words numRows batchsize draws Session.start = .error e s →
      Raised raises e) ∧
    ((∀ calls call, raises calls call = none) →
      ∃ s, load raises words numRows batchsize draws Session.start = .ok () s) := by
  have hrun := triple_load raises hbatch hdraws numRows
  refine ⟨?_, ?_, ?_⟩
  · intro s hs
    have hsent := hrun.of_ok rfl hs
    have hcells : cells s.made = (List.range (numRows - 1)).map (cellOf words batchsize draws) :=
      (List.append_nil _).symm.trans hsent
    refine ⟨hcells, ?_⟩
    rw [hcells, List.map_map]
    refine List.nodup_range.map fun x x' h => ?_
    exact cellOf_column_injective words batchsize draws (Prod.mk.inj h).2
  · intro e s hs
    exact hrun.of_error rfl hs
  · intro hnever
    obtain ⟨_, s, hs, _⟩ := hrun.returns rfl fun e _ => not_raised hnever e
    exact ⟨s, hs⟩

/-- The first word and the last one give one row key, `a10`, to all four cells. -/
theorem load_cells_clash :
    ∃ s, load (fun _ _ => none) ("a1".toList :: List.replicate 10 "a".toList) 5 2
        (fun k => 10 * min k 1) Session.start = .ok () s ∧
      (cells s.made).map Cell.row = List.replicate 4 "a10".toList ∧
      ((cells s.made).map fun c => (c.row, c.column)).Nodup := by
  have hdraws : ∀ k : ℕ, ((10 * min k 1 : ℕ) : ℤ)
      ≤ max ("a1".toList :: List.replicate 10 "a".toList) := by
    intro k
    show ((10 * min k 1 : ℕ) : ℤ) ≤ 10
    omega
  obtain ⟨hok, _, hreturns⟩ := load_cells ("a1".toList :: List.replicate 10 "a".toList) 5 2
    (by decide) (fun k => 10 * min k 1) hdraws fun _ _ => none
  obtain ⟨s, hs⟩ := hreturns fun _ _ => rfl
  obtain ⟨hcells, hnodup⟩ := hok s hs
  refine ⟨s, hs, ?_, hnodup⟩
  rw [hcells]
  decide

end HadoopExamples.RandomWords
