import Mathlib.Algebra.Order.BigOperators.Group.List
import Mathlib.Algebra.Order.Ring.Nat
import HadoopExamples.Library.MapReduce
import HadoopExamples.Platform.Perl

set_option autoImplicit false

/-! # The reducer of the config dumper

`reducer.pl` concatenates the values of each key. It prints what it has when the key changes, but
tells whether there is a previous key by its truth, which the key `0` does not have; and it takes
for the value of a line what stands before the next tab. `reducer_groups_iff` says that these are
the only inputs on which the output is not one record for each key with all its values. -/

namespace HadoopExamples.StreamingConfigDumper

open Perl

/-! ## The code -/

/-- The variables that outlive a pass of the loop, and what is printed so far. -/
structure State where
  currKey : Scalar
  prevKey : Scalar
  val : Scalar
  out : PerlString

def State.init : State := ⟨none, none, none, []⟩

/-- `print $key, "\t", $val, "\n"` -/
def record (key val : Scalar) : PerlString := text key ++ '\t' :: (text val ++ ['\n'])

/-- One pass of the loop. -/
def step (s : State) (line : PerlString) : State :=
  -- two variables on the left, so `split` makes at most three pieces
  let fields := split '\t' 3 line
  let currKey := fields[0]?
  let currVal := fields[1]?
  if truthy s.prevKey && text currKey != text s.prevKey then
    { currKey := currKey
      prevKey := currKey
      val := currVal
      out := s.out ++ record s.prevKey s.val }
  else
    { currKey := currKey
      prevKey := currKey
      val := some (text s.val ++ ' ' :: text currVal)
      out := s.out }

/-- What is printed at the end, after the last record. -/
def finish (s : State) : PerlString :=
  if truthy s.currKey then s.out ++ record s.currKey s.val else s.out

def reducer (stdin : PerlString) : PerlString := finish ((readLines stdin).foldl step State.init)

/-! ## What it should print -/

/-- The line of a key and a value. -/
def inputLine (r : PerlString × PerlString) : PerlString := r.1 ++ '\t' :: (r.2 ++ ['\n'])

/-- White space that may stand before and after values. -/
def Blank (s : PerlString) : Prop := ∀ c ∈ s, c = ' ' ∨ c = '\n'

/-- `body` is the values, complete and in their order, with white space between and around them. -/
def Carries : List PerlString → PerlString → Prop
  | [], body => Blank body
  | v :: vs, body => ∃ before after rest, Blank before ∧ Blank after ∧ after ≠ [] ∧
      body = before ++ (v ++ (after ++ rest)) ∧ Carries vs rest

/-- The output is one record for each group, in their order, with the values of the group. -/
def Grouped : List (PerlString × List PerlString) → PerlString → Prop
  | [], out => out = []
  | (k, vs) :: groups, out => ∃ body rest, Carries vs body ∧
      out = record (some k) (some body) ++ rest ∧ Grouped groups rest

/-! ## What it prints -/

/-- What a line with the value `v` gives as `$curr_val`: all of it up to the next tab, and the line
    break only if there is none. -/
def field (v : PerlString) : PerlString := (v ++ ['\n']).takeWhile (· ≠ '\t')

/-- The text after the first value of a group. -/
def appended (vs : List PerlString) : PerlString := vs.flatMap fun v => ' ' :: field v

/-- The text of a group; `pending` is what is left in `$val` from keys that were not printed. -/
def body (pending : Scalar) : List PerlString → PerlString
  | [] => text pending
  | v :: vs => (match pending with
    | none => field v
    | some w => w ++ ' ' :: field v) ++ appended vs

/-- The output for groups: the key `0` has no record, and leaves its values to the next one. -/
def output (pending : Scalar) : List (PerlString × List PerlString) → PerlString
  | [] => []
  | (k, vs) :: groups =>
    if truthy (some k) then record (some k) (some (body pending vs)) ++ output none groups
    else output (some (body pending vs)) groups

theorem split_inputLine {k : PerlString} (hk : '\t' ∉ k) (v : PerlString) :
    (split '\t' 3 (inputLine (k, v)))[0]? = some k ∧
      (split '\t' 3 (inputLine (k, v)))[1]? = some (field v) := by
  have hsplit : split '\t' 3 (inputLine (k, v)) = k :: pieces '\t' 1 (v ++ ['\n']) := by
    unfold split inputLine
    rw [if_neg (by simp)]
    exact pieces_append hk 1 (v ++ ['\n'])
  rw [hsplit]
  exact ⟨rfl, getElem?_zero_pieces '\t' 0 (v ++ ['\n'])⟩

/-- The state after a line of the key `k`, when `$val` is `w`. -/
def State.within (k w out : PerlString) : State := ⟨some k, some k, some w, out⟩

theorem step_inputLine {k : PerlString} (hk : '\t' ∉ k) (s : State) (v : PerlString) :
    step s (inputLine (k, v)) =
      if truthy s.prevKey && k != text s.prevKey then
        .within k (field v) (s.out ++ record s.prevKey s.val)
      else .within k (text s.val ++ ' ' :: field v) s.out := by
  obtain ⟨hkey, hval⟩ := split_inputLine hk v
  unfold step
  simp only [hkey, hval]
  rfl

theorem step_same_key {k : PerlString} (hk : '\t' ∉ k) (w out v : PerlString) :
    step (.within k w out) (inputLine (k, v)) = .within k (w ++ ' ' :: field v) out := by
  have hsame : (k != text (State.within k w out).prevKey) = false := by
    simp [text, State.within]
  rw [step_inputLine hk, hsame, Bool.and_false, if_neg Bool.false_ne_true]
  rfl

/-- The first line of the next key. -/
theorem step_next_key {k k' : PerlString} (hk' : '\t' ∉ k') (hne : k' ≠ k)
    (w out v : PerlString) :
    step (.within k w out) (inputLine (k', v)) =
      if truthy (some k) then .within k' (field v) (out ++ record (some k) (some w))
      else .within k' (w ++ ' ' :: field v) out := by
  have hother : (k' != text (State.within k w out).prevKey) = true := by
    simpa [text, State.within] using hne
  rw [step_inputLine hk', hother, Bool.and_true]
  rfl

/-- The further lines of a key. -/
theorem foldl_step_same_key {k : PerlString} (hk : '\t' ∉ k) (w out : PerlString)
    (vs : List PerlString) :
    (vs.map fun v => inputLine (k, v)).foldl step (.within k w out)
      = .within k (w ++ appended vs) out := by
  induction vs generalizing w with
  | nil => simp [appended]
  | cons v vs ih =>
    rw [List.map_cons, List.foldl_cons, step_same_key hk, ih]
    simp [appended]

/-- The lines of groups. -/
def inputLines (groups : List (PerlString × List PerlString)) : List PerlString :=
  groups.flatMap fun g => g.2.map fun v => inputLine (g.1, v)

/-- After a line of the key `k`, the rest of the run prints the record of `k`, if it has one, and
    those of the groups that follow. -/
theorem finish_foldl_step {groups : List (PerlString × List PerlString)} {k : PerlString}
    (hkeys : ∀ g ∈ groups, '\t' ∉ g.1) (hvalues : ∀ g ∈ groups, g.2 ≠ [])
    (hnodup : (k :: groups.map Prod.fst).Nodup) (w out : PerlString) :
    finish ((inputLines groups).foldl step (.within k w out))
      = out ++ if truthy (some k) then record (some k) (some w) ++ output none groups
        else output (some w) groups := by
  induction groups generalizing k w out with
  | nil =>
    show (if truthy (some k) then out ++ record (some k) (some w) else out) = _
    split
    · simp [output]
    · simp [output]
  | cons g groups ih =>
    obtain ⟨k', vs⟩ := g
    rw [List.map_cons] at hnodup
    obtain ⟨hk, hrest⟩ := List.nodup_cons.1 hnodup
    have hne : k' ≠ k := fun heq => hk (heq ▸ List.mem_cons_self ..)
    obtain ⟨hk', hkeys⟩ := List.forall_mem_cons.1 hkeys
    obtain ⟨hvs, hvalues⟩ := List.forall_mem_cons.1 hvalues
    have ih := ih hkeys hvalues hrest
    cases vs with
    | nil => exact absurd rfl hvs
    | cons v vs =>
      have hlines : inputLines ((k', v :: vs) :: groups) = inputLine (k', v) ::
          ((vs.map fun v => inputLine (k', v)) ++ inputLines groups) := rfl
      rw [hlines, List.foldl_cons, List.foldl_append, step_next_key hk' hne]
      cases htruthy : truthy (some k) with
      | true =>
        rw [if_pos rfl, if_pos rfl, foldl_step_same_key hk', ih, output]
        simp only [body, List.append_assoc]
      | false =>
        rw [if_neg Bool.false_ne_true, if_neg Bool.false_ne_true, foldl_step_same_key hk', ih,
          output]
        simp only [body]

/-- What the reducer prints for groups of distinct keys. -/
theorem finish_inputLines {groups : List (PerlString × List PerlString)}
    (hkeys : ∀ g ∈ groups, '\t' ∉ g.1) (hvalues : ∀ g ∈ groups, g.2 ≠ [])
    (hnodup : (groups.map Prod.fst).Nodup) :
    finish ((inputLines groups).foldl step State.init) = output (some []) groups := by
  cases groups with
  | nil => rfl
  | cons g groups =>
    obtain ⟨k, vs⟩ := g
    obtain ⟨hk, hkeysRest⟩ := List.forall_mem_cons.1 hkeys
    obtain ⟨hvs, hvaluesRest⟩ := List.forall_mem_cons.1 hvalues
    cases vs with
    | nil => exact absurd rfl hvs
    | cons v vs =>
      have hlines : inputLines ((k, v :: vs) :: groups) = inputLine (k, v) ::
          ((vs.map fun v => inputLine (k, v)) ++ inputLines groups) := rfl
      -- no key before it, and `$val` is still undefined
      have hfirst : step State.init (inputLine (k, v)) = .within k (' ' :: field v) [] := by
        rw [step_inputLine hk]
        rfl
      rw [hlines, List.foldl_cons, List.foldl_append, hfirst, foldl_step_same_key hk,
        finish_foldl_step hkeysRest hvaluesRest hnodup, output]
      simp only [body, List.nil_append]

/-! ## Counting tabs -/

theorem tab_not_mem_field (v : PerlString) : '\t' ∉ field v := by
  intro h
  have := List.mem_takeWhile_imp h
  simp at this

theorem tab_not_mem_appended (vs : List PerlString) : '\t' ∉ appended vs := by
  simp [appended, tab_not_mem_field]

theorem tab_not_mem_body {pending : Scalar} (hpending : '\t' ∉ text pending)
    (vs : List PerlString) : '\t' ∉ body pending vs := by
  cases vs with
  | nil => exact hpending
  | cons v vs =>
    cases pending with
    | none => simp [body, tab_not_mem_field, tab_not_mem_appended]
    | some w =>
      have hw : '\t' ∉ w := hpending
      simp [body, hw, tab_not_mem_field, tab_not_mem_appended]

/-- A record has one tab, and those of what is printed as its values. -/
theorem count_tab_record {k : PerlString} (hk : '\t' ∉ k) (body : PerlString) :
    (record (some k) (some body)).count '\t' = 1 + body.count '\t' := by
  show (k ++ '\t' :: (body ++ ['\n'])).count '\t' = 1 + body.count '\t'
  have hkey := List.count_eq_zero_of_not_mem hk
  have hbreak : ['\n'].count '\t' = 0 := rfl
  rw [List.count_append, List.count_cons_self, List.count_append, hkey, hbreak, Nat.zero_add,
    Nat.add_zero, Nat.add_comm]

/-- The output has one tab for each key that is printed. -/
theorem count_tab_output {groups : List (PerlString × List PerlString)}
    (hkeys : ∀ g ∈ groups, '\t' ∉ g.1) {pending : Scalar} (hpending : '\t' ∉ text pending) :
    (output pending groups).count '\t' = groups.countP fun g => truthy (some g.1) := by
  induction groups generalizing pending with
  | nil => rfl
  | cons g groups ih =>
    obtain ⟨k, vs⟩ := g
    obtain ⟨hk, hkeys⟩ := List.forall_mem_cons.1 hkeys
    have hbody := tab_not_mem_body hpending vs
    rw [output, List.countP_cons]
    cases htruthy : truthy (some k) with
    | true =>
      have hrest := @ih hkeys none (by simp [text])
      rw [if_pos rfl, if_pos rfl, List.count_append, count_tab_record hk,
        List.count_eq_zero_of_not_mem hbody, hrest, Nat.add_zero, Nat.add_comm]
    | false =>
      have hrest := @ih hkeys (some (body pending vs)) hbody
      rw [if_neg Bool.false_ne_true, if_neg Bool.false_ne_true, hrest, Nat.add_zero]

/-- The tabs in the values of a group. -/
def tabs (vs : List PerlString) : ℕ := vs.flatten.count '\t'

theorem count_tab_blank {s : PerlString} (h : Blank s) : s.count '\t' = 0 := by
  refine List.count_eq_zero_of_not_mem fun hmem => ?_
  rcases h '\t' hmem with heq | heq
  · exact absurd heq (by decide)
  · exact absurd heq (by decide)

theorem count_tab_carries {vs : List PerlString} {body : PerlString} (h : Carries vs body) :
    body.count '\t' = tabs vs := by
  induction vs generalizing body with
  | nil => exact count_tab_blank h
  | cons v vs ih =>
    obtain ⟨before, after, rest, hbefore, hafter, _, rfl, hrest⟩ := h
    simp [tabs, count_tab_blank hbefore, count_tab_blank hafter, ih hrest]

/-- A grouped output has one tab for each group, and those of the values. -/
theorem count_tab_grouped {groups : List (PerlString × List PerlString)} {out : PerlString}
    (hkeys : ∀ g ∈ groups, '\t' ∉ g.1) (h : Grouped groups out) :
    out.count '\t' = (groups.map fun g => 1 + tabs g.2).sum := by
  induction groups generalizing out with
  | nil =>
    rw [show out = [] from h]
    rfl
  | cons g groups ih =>
    obtain ⟨k, vs⟩ := g
    obtain ⟨body, rest, hbody, rfl, hrest⟩ := h
    obtain ⟨hk, hkeys⟩ := List.forall_mem_cons.1 hkeys
    rw [List.count_append, count_tab_record hk, count_tab_carries hbody, ih hkeys hrest,
      List.map_cons, List.sum_cons]

theorem countP_le_sum {α : Type} (p : α → Bool) (t : α → ℕ) (l : List α) :
    l.countP p ≤ (l.map fun a => 1 + t a).sum := by
  induction l with
  | nil => exact Nat.le_refl 0
  | cons a l ih =>
    rw [List.countP_cons, List.map_cons, List.sum_cons]
    split <;> omega

/-- Both counts agree only where every element counts and adds nothing more. -/
theorem countP_eq_sum_iff {α : Type} (p : α → Bool) (t : α → ℕ) (l : List α) :
    l.countP p = (l.map fun a => 1 + t a).sum ↔ ∀ a ∈ l, p a = true ∧ t a = 0 := by
  induction l with
  | nil => simp
  | cons a l ih =>
    have hle := countP_le_sum p t l
    rw [List.countP_cons, List.map_cons, List.sum_cons, List.forall_mem_cons, ← ih]
    cases p a with
    | true => simp only [if_true, true_and]; omega
    | false => simp only [Bool.false_eq_true, if_false, false_and, iff_false]; omega

theorem tabs_eq_zero_iff {vs : List PerlString} : tabs vs = 0 ↔ ∀ v ∈ vs, '\t' ∉ v := by
  simp [tabs, List.count_eq_zero]

/-! ## All values of all keys -/

theorem field_eq {v : PerlString} (hv : '\t' ∉ v) : field v = v ++ ['\n'] := by
  unfold field
  rw [List.takeWhile_eq_self_iff]
  intro c hc
  rcases List.mem_append.1 hc with hc | hc
  · exact decide_eq_true fun heq : c = '\t' => hv (heq ▸ hc)
  · rw [List.mem_singleton.1 hc]
    rfl

theorem carries_appended {vs : List PerlString} (hvs : ∀ v ∈ vs, '\t' ∉ v) :
    Carries vs (appended vs) := by
  induction vs with
  | nil => exact fun c hc => nomatch hc
  | cons v vs ih =>
    obtain ⟨hv, hvs⟩ := List.forall_mem_cons.1 hvs
    refine ⟨[' '], ['\n'], appended vs, by simp [Blank], by simp [Blank], by simp, ?_, ih hvs⟩
    simp [appended, field_eq hv]

/-- What is left from before may be white space, and no value is lost. -/
theorem carries_body {pending : Scalar} (hpending : Blank (text pending))
    {vs : List PerlString} (hvs : ∀ v ∈ vs, '\t' ∉ v) : Carries vs (body pending vs) := by
  cases vs with
  | nil => exact hpending
  | cons v vs =>
    obtain ⟨hv, hvs⟩ := List.forall_mem_cons.1 hvs
    have hv := field_eq hv
    have hrest := carries_appended hvs
    cases pending with
    | none =>
      refine ⟨[], ['\n'], appended vs, by simp [Blank], by simp [Blank], by simp, ?_, hrest⟩
      simp [body, hv]
    | some w =>
      have hbefore : Blank (w ++ [' ']) := by
        intro c hc
        rcases List.mem_append.1 hc with hc | hc
        · exact hpending c hc
        · exact Or.inl (List.mem_singleton.1 hc)
      refine ⟨w ++ [' '], ['\n'], appended vs, hbefore, by simp [Blank], by simp, ?_, hrest⟩
      simp [body, hv]

theorem grouped_output {groups : List (PerlString × List PerlString)}
    (hgroups : ∀ g ∈ groups, truthy (some g.1) = true ∧ ∀ v ∈ g.2, '\t' ∉ v) {pending : Scalar}
    (hpending : Blank (text pending)) : Grouped groups (output pending groups) := by
  induction groups generalizing pending with
  | nil => rfl
  | cons g groups ih =>
    obtain ⟨k, vs⟩ := g
    obtain ⟨⟨hk, hvs⟩, hgroups⟩ := List.forall_mem_cons.1 hgroups
    have hnone : Blank (text none) := fun c hc => nomatch hc
    have hrest := ih hgroups hnone
    rw [output, if_pos hk]
    exact ⟨body pending vs, output none groups, carries_body hpending hvs, rfl, hrest⟩

/-- The output for groups of distinct keys is grouped exactly if every key is true and no value
    has a tab: it has a tab for each key that is true, and would need one for every key and those
    of the values. -/
theorem grouped_output_iff {groups : List (PerlString × List PerlString)}
    (hkeys : ∀ g ∈ groups, '\t' ∉ g.1) :
    Grouped groups (output (some []) groups) ↔
      ∀ g ∈ groups, truthy (some g.1) = true ∧ ∀ v ∈ g.2, '\t' ∉ v := by
  refine ⟨fun h => ?_, fun h => grouped_output h (by simp [Blank, text])⟩
  have htabs := count_tab_grouped hkeys h
  rw [count_tab_output hkeys (by simp [text]), countP_eq_sum_iff] at htabs
  intro g hg
  exact ⟨(htabs g hg).1, tabs_eq_zero_iff.1 (htabs g hg).2⟩

/-! ## The script on its input -/

section Script

variable {records : List (PerlString × PerlString)}

theorem readLines_inputLines (hrecords : ∀ r ∈ records, '\n' ∉ r.1 ∧ '\n' ∉ r.2) :
    readLines (records.flatMap inputLine) = records.map inputLine := by
  induction records with
  | nil => rfl
  | cons r records ih =>
    obtain ⟨⟨hkey, hvalue⟩, hrecords⟩ := List.forall_mem_cons.1 hrecords
    have hline : inputLine r = (r.1 ++ '\t' :: r.2) ++ ['\n'] := by simp [inputLine]
    have hfree : '\n' ∉ r.1 ++ '\t' :: r.2 := by simp [hkey, hvalue]
    rw [List.flatMap_cons, List.map_cons, hline, List.append_assoc, List.singleton_append,
      readLines_append hfree, ih hrecords]

theorem map_inputLine (groups : List (PerlString × List PerlString)) :
    (MapReduce.ungroup groups).map inputLine = inputLines groups := by
  rw [MapReduce.ungroup, inputLines, List.map_flatMap]
  simp only [List.map_map]
  rfl

/-- The output of the script for lines whose keys stand together. -/
theorem reducer_eq_output (hkeys : ∀ r ∈ records, '\t' ∉ r.1 ∧ '\n' ∉ r.1)
    (hvalues : ∀ r ∈ records, '\n' ∉ r.2) (htogether : MapReduce.KeysTogether records) :
    reducer (records.flatMap inputLine)
      = output (some []) (MapReduce.groupsInOrder records) := by
  have hgrouping := MapReduce.grouping_groupsInOrder records
  have hlines : records.map inputLine = inputLines (MapReduce.groupsInOrder records) := by
    rw [← map_inputLine, MapReduce.ungroup_groupsInOrder htogether]
  have hgroups : ∀ g ∈ MapReduce.groupsInOrder records, '\t' ∉ g.1 := by
    intro g hg
    obtain ⟨v, hv⟩ := (hgrouping.mem_keys g.1).1 (List.mem_map_of_mem hg)
    exact (hkeys _ hv).1
  unfold reducer
  rw [readLines_inputLines fun r hr => ⟨(hkeys r hr).2, hvalues r hr⟩, hlines,
    finish_inputLines hgroups hgrouping.nonempty hgrouping.keys_nodup]

/-- On the lines of non-empty keys without tabs and line breaks, those of a key together, and of
    values without line breaks, the reducer prints one record for each key with all its values
    exactly if no key is `0` and no value has a tab. -/
theorem reducer_groups_iff (records : List (PerlString × PerlString))
    (hkeys : ∀ r ∈ records, r.1 ≠ [] ∧ '\t' ∉ r.1 ∧ '\n' ∉ r.1)
    (hvalues : ∀ r ∈ records, '\n' ∉ r.2) (htogether : MapReduce.KeysTogether records) :
    Grouped (MapReduce.groupsInOrder records) (reducer (records.flatMap inputLine)) ↔
      ∀ r ∈ records, r.1 ≠ ['0'] ∧ '\t' ∉ r.2 := by
  have hgrouping := MapReduce.grouping_groupsInOrder records
  -- every record is in a group, and every group has one
  have hmem : ∀ k v, (k, v) ∈ records ↔
      ∃ vs, (k, vs) ∈ MapReduce.groupsInOrder records ∧ v ∈ vs := by
    intro k v
    rw [← MapReduce.mem_ungroup, MapReduce.ungroup_groupsInOrder htogether]
  have hgroups : ∀ g ∈ MapReduce.groupsInOrder records, g.1 ≠ [] ∧ '\t' ∉ g.1 := by
    intro g hg
    obtain ⟨v, hv⟩ := (hgrouping.mem_keys g.1).1 (List.mem_map_of_mem hg)
    exact ⟨(hkeys _ hv).1, (hkeys _ hv).2.1⟩
  rw [reducer_eq_output (fun r hr => (hkeys r hr).2) hvalues htogether,
    grouped_output_iff fun g hg => (hgroups g hg).2]
  constructor
  · intro hall r hr
    obtain ⟨vs, hg, hv⟩ := (hmem r.1 r.2).1 hr
    exact ⟨((truthy_iff (hgroups _ hg).1).1 (hall _ hg).1), (hall _ hg).2 _ hv⟩
  · intro hall g hg
    obtain ⟨v, hv⟩ := (hgrouping.mem_keys g.1).1 (List.mem_map_of_mem hg)
    exact ⟨(truthy_iff (hgroups g hg).1).2 (hall _ hv).1,
      fun v hv => (hall _ ((hmem g.1 v).2 ⟨g.2, hg, hv⟩)).2⟩

/-- Two keys that are kept apart. -/
theorem reducer_groups_iff_two_keys :
    Grouped [("a".toList, ["1".toList, "2".toList]), ("b".toList, ["3".toList])]
      (reducer "a\t1\na\t2\nb\t3\n".toList) :=
  (reducer_groups_iff [("a".toList, "1".toList), ("a".toList, "2".toList),
    ("b".toList, "3".toList)] (by decide) (by decide) (by decide)).2 (by decide)

/-- The key `0` has no record, its value turns up under the next key; and of a value with a tab only
    the part before the tab is printed. -/
theorem reducer_loses_values :
    reducer "0\ta\nb\tc\n".toList = "b\t a\n c\n\n".toList ∧
      ¬ Grouped (MapReduce.groupsInOrder [("0".toList, "a".toList), ("b".toList, "c".toList)])
        (reducer "0\ta\nb\tc\n".toList) ∧
      reducer "a\tx\ty\n".toList = "a\t x\n".toList ∧
      ¬ Grouped (MapReduce.groupsInOrder [("a".toList, "x\ty".toList)])
        (reducer "a\tx\ty\n".toList) := by
  have hzero : reducer "0\ta\nb\tc\n".toList = "b\t a\n c\n\n".toList := by decide
  have htab : reducer "a\tx\ty\n".toList = "a\t x\n".toList := by decide
  refine ⟨hzero, ?_, htab, ?_⟩
  · intro h
    have htabs := count_tab_grouped (by decide) h
    rw [hzero] at htabs
    exact absurd htabs (by decide)
  · intro h
    have htabs := count_tab_grouped (by decide) h
    rw [htab] at htabs
    exact absurd htabs (by decide)

end Script

end HadoopExamples.StreamingConfigDumper
