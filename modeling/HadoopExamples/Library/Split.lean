import Mathlib.Data.List.Basic
import Mathlib.Data.List.DropRight

set_option autoImplicit false

/-! # Splitting lists at separators

The two ways of cutting a list that split functions of standard libraries offer: at every single
separator (`List.splitOnP`) and at every maximal run of separators (`runPieces`, a regular
expression `[sep]+` matched greedily from the left). Both keep every empty piece;
`dropTrailing` is the convention that removes the trailing ones, unless nothing was cut at all.

Against them stand two descriptions that mention no algorithm: `cut_first` inverts one cut at a
single separator, and `IsRunAt`/`runCount` say where a list is a *maximal run* of a class of
elements and how often. `count_runPieces` connects the two: the non-empty pieces between runs of
separators are the maximal runs of the other elements, with the same multiplicities. -/

namespace Split

variable {α β : Type}

/-! ## Trailing empty pieces -/

/-- Remove the trailing empty pieces, but leave a list that was not cut as it is. -/
def dropTrailing : List (List α) → List (List α)
  | [w] => [w]
  | ws => ws.rdropWhile List.isEmpty

theorem dropTrailing_prefix (ws : List (List α)) : dropTrailing ws <+: ws := by
  unfold dropTrailing
  split
  · exact List.prefix_refl _
  · exact List.rdropWhile_prefix _ _

theorem filter_rdropWhile_isEmpty (ws : List (List α)) :
    (ws.rdropWhile List.isEmpty).filter (fun w => !w.isEmpty)
      = ws.filter (fun w => !w.isEmpty) := by
  induction ws using List.reverseRecOn with
  | nil => simp
  | append_singleton ws w ih =>
    by_cases hw : w.isEmpty = true
    · rw [List.rdropWhile_concat_pos _ _ _ hw, ih]
      simp [List.filter_append, hw]
    · rw [List.rdropWhile_concat_neg _ _ _ hw]

/-- Only empty pieces are dropped. -/
theorem filter_dropTrailing (ws : List (List α)) :
    (dropTrailing ws).filter (fun w => !w.isEmpty) = ws.filter (fun w => !w.isEmpty) := by
  unfold dropTrailing
  split
  · rfl
  · exact filter_rdropWhile_isEmpty _

theorem getElem?_rdropWhile_isEmpty {ws : List (List α)} {i : ℕ} {w : List α}
    (hi : ws[i]? = some w) (hw : w ≠ []) : (ws.rdropWhile List.isEmpty)[i]? = some w := by
  induction ws using List.reverseRecOn with
  | nil => simp at hi
  | append_singleton ws v ih =>
    by_cases hv : v.isEmpty = true
    · rw [List.rdropWhile_concat_pos _ _ _ hv]
      apply ih
      rcases Nat.lt_or_ge i ws.length with hlt | hge
      · rwa [List.getElem?_append_left hlt] at hi
      · rw [List.getElem?_append_right hge, List.getElem?_singleton] at hi
        split at hi
        · rw [Option.some.inj hi, List.isEmpty_iff] at hv
          exact absurd hv hw
        · exact absurd hi (by simp)
    · rwa [List.rdropWhile_concat_neg _ _ _ hv]

/-- A non-empty piece keeps its index. -/
theorem getElem?_dropTrailing {ws : List (List α)} {i : ℕ} {w : List α}
    (hi : ws[i]? = some w) (hw : w ≠ []) : (dropTrailing ws)[i]? = some w := by
  unfold dropTrailing
  split
  · exact hi
  · exact getElem?_rdropWhile_isEmpty hi hw

/-! ## Single separators -/

variable (sep : α → Bool)

/-- A list is free of separators, or has a first one. -/
theorem exists_first (s : List α) :
    ∃ w, (∀ c ∈ w, sep c = false) ∧ (s = w ∨ ∃ c t, sep c = true ∧ s = w ++ c :: t) := by
  induction s with
  | nil => exact ⟨[], by simp, Or.inl rfl⟩
  | cons a s ih =>
    by_cases ha : sep a = true
    · exact ⟨[], by simp, Or.inr ⟨a, s, ha, rfl⟩⟩
    · obtain ⟨w, hw, hs⟩ := ih
      refine ⟨a :: w, ?_, ?_⟩
      · intro c hc
        rcases List.mem_cons.1 hc with rfl | hc
        · simpa using ha
        · exact hw c hc
      · rcases hs with rfl | ⟨c, t, hc, rfl⟩
        · exact Or.inl rfl
        · exact Or.inr ⟨c, t, hc, rfl⟩

/-- One cut at a single separator: the first piece `w` is free of separators and either is the
    whole list, or is followed by a separator and the list the remaining pieces come from. -/
theorem cut_first {s w : List α} {ws : List (List α)} :
    s.splitOnP sep = w :: ws ↔
      (∀ c ∈ w, sep c = false) ∧
        ((s = w ∧ ws = []) ∨ ∃ c t, sep c = true ∧ s = w ++ c :: t ∧ ws = t.splitOnP sep) := by
  constructor
  · intro h
    obtain ⟨v, hv, rfl | ⟨c, t, hc, rfl⟩⟩ := exists_first sep s
    · rw [List.splitOnP_eq_singleton hv, List.cons.injEq] at h
      obtain ⟨rfl, rfl⟩ := h
      exact ⟨hv, Or.inl ⟨rfl, rfl⟩⟩
    · rw [List.splitOnP_append_cons_of_forall_mem hv c hc, List.cons.injEq] at h
      obtain ⟨rfl, rfl⟩ := h
      exact ⟨hv, Or.inr ⟨c, t, hc, rfl, rfl⟩⟩
  · rintro ⟨hw, ⟨rfl, rfl⟩ | ⟨c, t, hc, rfl, rfl⟩⟩
    · exact List.splitOnP_eq_singleton hw
    · exact List.splitOnP_append_cons_of_forall_mem hw c hc t

/-- The last piece of a list that does not end in a separator is not empty. -/
theorem getLast?_splitOnP_concat {c : α} (hc : sep c = false) (s : List α) :
    ((s ++ [c]).splitOnP sep).getLast? ≠ some [] := by
  induction s with
  | nil => simp [List.splitOnP_cons_eq_if_modifyHead, hc]
  | cons a s ih =>
    obtain ⟨w, ws, hws⟩ := List.exists_cons_of_ne_nil (List.splitOnP_ne_nil sep (s ++ [c]))
    rw [hws] at ih
    rw [List.cons_append, List.splitOnP_cons_eq_if_modifyHead, hws]
    split
    · simpa [List.getLast?_cons_cons] using ih
    · cases ws with
      | nil => simp
      | cons v ws => simpa [List.getLast?_cons_cons] using ih

/-- A split has no trailing empty pieces to lose exactly when the list does not end in a
    separator. -/
theorem dropTrailing_splitOnP_iff (s : List α) :
    dropTrailing (s.splitOnP sep) = s.splitOnP sep ↔ s.getLast?.any sep = false := by
  rcases List.eq_nil_or_concat s with rfl | ⟨s, c, rfl⟩
  · simp [dropTrailing]
  rw [List.concat_eq_append, List.getLast?_concat, Option.any_some]
  cases hc : sep c with
  | true =>
    have hsplit : (s ++ [c]).splitOnP sep = s.splitOnP sep ++ [[]] := by
      rw [List.splitOnP_append_cons s [] hc, List.splitOnP_nil]
    obtain ⟨w, ws, hws⟩ := List.exists_cons_of_ne_nil (List.splitOnP_ne_nil sep s)
    have hdrop : dropTrailing (s.splitOnP sep ++ [[]])
        = (s.splitOnP sep).rdropWhile List.isEmpty := by
      rw [← List.rdropWhile_concat_pos List.isEmpty _ [] rfl, hws]
      cases ws <;> rfl
    have hshort := (List.rdropWhile_prefix List.isEmpty (s.splitOnP sep)).length_le
    rw [hsplit, hdrop]
    simp only [Bool.true_eq_false, iff_false]
    intro h
    rw [h, List.length_append, List.length_singleton] at hshort
    omega
  | false =>
    have hlast := getLast?_splitOnP_concat sep hc s
    simp only [iff_true]
    unfold dropTrailing
    split
    · rename_i hsingle
      exact hsingle.symm
    · rw [List.rdropWhile_eq_self_iff]
      intro hne hempty
      rw [List.isEmpty_iff] at hempty
      exact hlast (by rw [List.getLast?_eq_some_getLast hne, hempty])

/-! ## Empty pieces that are kept -/

/-- A separator that has some other element behind it stands right behind such an element. -/
def WellSpaced (s : List α) : Prop :=
  ∀ u c v, s = u ++ c :: v → sep c = true → (∃ d ∈ v, sep d = false) →
    u.getLast?.map sep = some false

section Kept

variable {sep}

/-- Without separators, the condition is empty. -/
theorem wellSpaced_of_free {w : List α} (hw : ∀ c ∈ w, sep c = false) : WellSpaced sep w := by
  intro u c v hsplit hc
  have hfree := hw c (by rw [hsplit]; simp)
  rw [hc] at hfree
  cases hfree

/-- What stands right behind a separator stands first behind it. -/
theorem getLast?_append_cons_iff {w u : List α} {c : α} (hc : sep c = true) :
    (w ++ c :: u).getLast?.map sep = some false ↔ u.getLast?.map sep = some false := by
  rcases List.eq_nil_or_concat u with rfl | ⟨u, e, rfl⟩
  · simp [hc]
  · rw [List.concat_eq_append, ← List.cons_append, ← List.append_assoc, List.getLast?_concat,
      List.getLast?_concat]

theorem getLast?_of_free {w : List α} (hne : w ≠ []) (hw : ∀ d ∈ w, sep d = false) :
    w.getLast?.map sep = some false := by
  rw [List.getLast?_eq_some_getLast hne, Option.map_some, hw _ (List.getLast_mem hne)]

/-- Up to the first separator and behind it. -/
theorem wellSpaced_append_iff {w t : List α} {c : α} (hw : ∀ d ∈ w, sep d = false)
    (hc : sep c = true) : WellSpaced sep (w ++ c :: t) ↔
      (w = [] → ∀ d ∈ t, sep d = true) ∧ WellSpaced sep t := by
  constructor
  · intro h
    refine ⟨?_, fun u c' v hsplit hc' hv => ?_⟩
    · rintro rfl d hd
      by_contra hnot
      cases h [] c t rfl hc ⟨d, hd, by simpa using hnot⟩
    · have hlast := h (w ++ c :: u) c' v (by rw [hsplit]; simp) hc' hv
      exact (getLast?_append_cons_iff hc).1 hlast
  · intro ⟨hfirst, ht⟩ u c' v hsplit hc' hv
    have hhere : u = w → v = t → u.getLast?.map sep = some false := by
      rintro rfl rfl
      refine getLast?_of_free (fun hnil => ?_) hw
      obtain ⟨d, hd, hfree⟩ := hv
      rw [hfirst hnil d hd] at hfree
      cases hfree
    -- the separator `c'` is the first one, behind it, or in `w`
    rcases List.append_eq_append_iff.1 hsplit with ⟨more, hu, hmore⟩ | ⟨more, hu, hmore⟩
    · cases more with
      | nil =>
        rw [List.append_nil] at hu
        exact hhere hu (List.cons.inj hmore).2.symm
      | cons c'' more =>
        obtain ⟨rfl, hbehind⟩ := List.cons.inj hmore
        rw [hu]
        exact (getLast?_append_cons_iff hc).2 (ht more c' v hbehind hc' hv)
    · cases more with
      | nil =>
        rw [List.append_nil] at hu
        exact hhere hu.symm (List.cons.inj hmore).2
      | cons c'' more =>
        have hfree := hw c' (by rw [hu, (List.cons.inj hmore).1]; simp)
        rw [hc'] at hfree
        cases hfree

theorem rdropWhile_cons (p : β → Bool) (b : β) (l : List β) :
    (b :: l).rdropWhile p
      = if l.rdropWhile p = [] then (if p b then [] else [b]) else b :: l.rdropWhile p := by
  unfold List.rdropWhile
  rw [List.reverse_cons, List.dropWhile_append]
  by_cases hl : l.reverse.dropWhile p = []
  · cases hb : p b <;> simp [hl, hb]
  · simp [hl]

/-- All pieces are empty exactly if there are only separators. -/
theorem forall_mem_splitOnP_iff (s : List α) :
    (∀ w ∈ s.splitOnP sep, w.isEmpty = true) ↔ ∀ c ∈ s, sep c = true := by
  induction s with
  | nil => simp
  | cons c s ih =>
    obtain ⟨w, ws, hws⟩ := List.exists_cons_of_ne_nil (List.splitOnP_ne_nil sep s)
    rw [hws] at ih
    rw [List.splitOnP_cons_eq_if_modifyHead, hws]
    cases hc : sep c with
    | true => simpa [hc] using ih
    | false => simp [hc]

theorem nil_notMem_rdropWhile_splitOnP (s : List α) :
    [] ∉ (s.splitOnP sep).rdropWhile List.isEmpty ↔ WellSpaced sep s := by
  obtain ⟨n, hn⟩ : ∃ n, n = s.length := ⟨_, rfl⟩
  induction n using Nat.strong_induction_on generalizing s with
  | _ n ih =>
    obtain ⟨w, hw, rfl | ⟨c, t, hc, rfl⟩⟩ := exists_first sep s
    · rw [List.splitOnP_eq_singleton hw, List.rdropWhile_singleton]
      refine iff_of_true ?_ (wellSpaced_of_free hw)
      cases s <;> simp
    · have ht : t.length < n := by
        rw [hn, List.length_append, List.length_cons]
        omega
      have hall : (t.splitOnP sep).rdropWhile List.isEmpty = [] ↔ ∀ d ∈ t, sep d = true := by
        rw [List.rdropWhile_eq_nil_iff, forall_mem_splitOnP_iff]
      rw [List.splitOnP_append_cons_of_forall_mem hw c hc t, rdropWhile_cons,
        wellSpaced_append_iff hw hc, ← ih t.length ht t rfl, ← hall]
      by_cases hnone : (t.splitOnP sep).rdropWhile List.isEmpty = []
      · rw [if_pos hnone, hnone]
        refine iff_of_true ?_ ⟨fun _ => rfl, List.not_mem_nil⟩
        cases w <;> simp
      · rw [if_neg hnone, List.mem_cons, not_or]
        refine and_congr_left fun _ => ⟨fun hne hnil => absurd hnil.symm hne, fun h hnil => ?_⟩
        exact hnone (h hnil.symm)

/-- No piece of a split is empty exactly if there is something to split and it is well spaced. -/
theorem nil_notMem_dropTrailing_splitOnP (s : List α) :
    [] ∉ dropTrailing (s.splitOnP sep) ↔ s ≠ [] ∧ WellSpaced sep s := by
  obtain ⟨w, hw, hs⟩ := exists_first sep s
  rcases hs with rfl | ⟨c, t, hc, rfl⟩
  · rw [List.splitOnP_eq_singleton hw, and_iff_left (wellSpaced_of_free hw)]
    show [] ∉ [s] ↔ _
    rw [List.mem_singleton, eq_comm]
  · have hcut : dropTrailing ((w ++ c :: t).splitOnP sep)
        = ((w ++ c :: t).splitOnP sep).rdropWhile List.isEmpty := by
      rw [List.splitOnP_append_cons_of_forall_mem hw c hc t]
      obtain ⟨v, vs, hvs⟩ := List.exists_cons_of_ne_nil (List.splitOnP_ne_nil sep t)
      rw [hvs]
      rfl
    rw [hcut, nil_notMem_rdropWhile_splitOnP, and_iff_right]
    simp

end Kept

section Element

variable [DecidableEq α] {sep : α} {s v w : List α} {ws : List (List α)}

/-- `cut_first` for a separator that is one element. -/
theorem cut_first_elem :
    s.splitOnP (· == sep) = w :: ws ↔
      sep ∉ w ∧ ((s = w ∧ ws = []) ∨ ∃ t, s = w ++ sep :: t ∧ ws = t.splitOnP (· == sep)) := by
  rw [cut_first]
  have hfree : (∀ c ∈ w, (c == sep) = false) ↔ sep ∉ w := by
    constructor
    · intro h hmem
      exact absurd (h sep hmem) (by simp)
    · intro h c hc
      simpa using fun heq : c = sep => h (heq ▸ hc)
  refine and_congr hfree (or_congr_right ⟨?_, ?_⟩)
  · rintro ⟨c, t, hc, hs, hws⟩
    obtain rfl := eq_of_beq hc
    exact ⟨t, hs, hws⟩
  · rintro ⟨t, hs, hws⟩
    exact ⟨sep, t, beq_self_eq_true sep, hs, hws⟩

/-- A first piece that another piece follows ends at a separator. -/
theorem cut_next :
    s.splitOnP (· == sep) = w :: v :: ws ↔
      sep ∉ w ∧ ∃ t, s = w ++ sep :: t ∧ t.splitOnP (· == sep) = v :: ws := by
  rw [cut_first_elem]
  simp [eq_comm]

omit [DecidableEq α] in
/-- What stands behind the last separator can be read back. -/
theorem eq_of_append_sep {s' t t' : List α} (ht : sep ∉ t) (ht' : sep ∉ t')
    (h : s ++ sep :: t = s' ++ sep :: t') : t = t' := by
  rcases List.append_eq_append_iff.1 h with ⟨more, _, hmore⟩ | ⟨more, _, hmore⟩
  · cases more with
    | nil => exact (List.cons.inj hmore).2
    | cons c more =>
      have hmem : sep ∈ t := by
        rw [(List.cons.inj hmore).2]
        exact List.mem_append_right _ (List.mem_cons_self ..)
      exact absurd hmem ht
  · cases more with
    | nil => exact (List.cons.inj hmore).2.symm
    | cons c more =>
      have hmem : sep ∈ t' := by
        rw [(List.cons.inj hmore).2]
        exact List.mem_append_right _ (List.mem_cons_self ..)
      exact absurd hmem ht'

end Element

/-! ## Runs of separators -/

/-- The pieces between the maximal runs of separators, the empty ones included; the flag tells
    whether the element before was a separator, so that a run cuts only once. -/
def runPieces : Bool → List α → List (List α)
  | _, [] => [[]]
  | inRun, c :: cs =>
    if sep c then
      if inRun then runPieces true cs else [] :: runPieces true cs
    else (runPieces false cs).modifyHead (c :: ·)

/-- Outside a run of separators the first piece is everything up to the next separator. -/
theorem runPieces_false (s : List α) :
    runPieces sep false s = s.takeWhile (fun c => !sep c) :: (runPieces sep false s).tail := by
  induction s with
  | nil => simp [runPieces]
  | cons c cs ih =>
    rw [runPieces]
    by_cases hc : sep c = true
    · simp [hc]
    · rw [if_neg hc, ih]
      simp [hc]

/-- The pieces depend only on which elements of the list are separators. -/
theorem runPieces_congr {sep sep' : α → Bool} {s : List α} (h : ∀ c ∈ s, sep c = sep' c)
    (inRun : Bool) : runPieces sep inRun s = runPieces sep' inRun s := by
  induction s generalizing inRun with
  | nil => rfl
  | cons c cs ih =>
    have htail := ih fun c' hc' => h c' (List.mem_cons_of_mem _ hc')
    rw [runPieces, runPieces, h c (List.mem_cons_self ..), htail, htail]

theorem nil_mem_runPieces_aux (s : List α) :
    ([] ∈ (runPieces sep false s).tail ↔ s ≠ [] ∧ s.getLast?.all sep = true) ∧
      ([] ∈ runPieces sep true s ↔ s.getLast?.all sep = true) := by
  induction s with
  | nil => simp [runPieces]
  | cons c cs ih =>
    obtain ⟨htail, hrun⟩ := ih
    have hlast : (c :: cs).getLast?.all sep = if cs = [] then sep c else cs.getLast?.all sep := by
      cases cs <;> simp [List.getLast?_cons_cons]
    rw [hlast]
    by_cases hc : sep c = true
    · simp only [runPieces, hc, if_true, Bool.false_eq_true, if_false, List.tail_cons, hrun]
      by_cases hcs : cs = [] <;> simp [hcs]
    · have hcut : ∀ inRun, runPieces sep inRun (c :: cs)
          = (c :: cs).takeWhile (fun c => !sep c) :: (runPieces sep false cs).tail := by
        intro inRun
        rw [runPieces, runPieces_false]
        simp [hc]
      have hne : [] ≠ (c :: cs).takeWhile (fun c => !sep c) := by simp [hc]
      simp only [hcut, List.tail_cons, List.mem_cons, hne, false_or, htail]
      by_cases hcs : cs = [] <;> simp [hcs, hc]

/-- There is an empty piece exactly when the list is empty or starts or ends with a separator. -/
theorem nil_mem_runPieces (s : List α) :
    [] ∈ runPieces sep false s ↔ s.head?.all sep = true ∨ s.getLast?.all sep = true := by
  rw [runPieces_false, List.mem_cons, (nil_mem_runPieces_aux sep s).1]
  cases s with
  | nil => simp
  | cons c cs =>
    have hhead : [] = (c :: cs).takeWhile (fun c => !sep c) ↔ sep c = true := by
      by_cases hc : sep c = true <;> simp [hc]
    rw [hhead]
    simp

/-! ## Maximal runs of a class -/

variable (p : α → Bool)

/-- `w` stands at index `i` of `s` as a maximal run of elements of the class `p`. -/
def IsRunAt (s w : List α) (i : ℕ) : Prop :=
  w ≠ [] ∧ w.all p = true ∧ w <+: s.drop i ∧
    (s.take i).getLast?.all (fun c => !p c) = true ∧
    (s.drop (i + w.length)).head?.all (fun c => !p c) = true

instance [DecidableEq α] (s w : List α) (i : ℕ) : Decidable (IsRunAt p s w i) :=
  inferInstanceAs (Decidable (_ ∧ _ ∧ _ ∧ _ ∧ _))

/-- The number of places at which `w` is a maximal run of `p` in `s`. -/
def runCount [DecidableEq α] (s w : List α) : ℕ :=
  (List.range s.length).countP (fun i => decide (IsRunAt p s w i))

theorem runCount_pos [DecidableEq α] {s w : List α} :
    0 < runCount p s w ↔ ∃ i, IsRunAt p s w i := by
  rw [runCount, List.countP_pos_iff]
  constructor
  · rintro ⟨i, _, hi⟩
    exact ⟨i, of_decide_eq_true hi⟩
  · rintro ⟨i, hi⟩
    refine ⟨i, List.mem_range.2 ?_, decide_eq_true hi⟩
    by_contra hlen
    have hpre := hi.2.2.1
    rw [List.drop_eq_nil_of_le (not_lt.1 hlen), List.prefix_nil] at hpre
    exact hi.1 hpre

theorem takeWhile_eq_iff {s w : List α} :
    s.takeWhile p = w ↔
      w.all p = true ∧ w <+: s ∧ (s.drop w.length).head?.all (fun c => !p c) = true := by
  constructor
  · rintro rfl
    refine ⟨List.all_takeWhile, List.takeWhile_prefix p, ?_⟩
    have hdrop := @List.drop_left _ (s.takeWhile p) (s.dropWhile p)
    rw [List.takeWhile_append_dropWhile] at hdrop
    rw [hdrop]
    have := List.head?_dropWhile_not p s
    cases h : (s.dropWhile p).head? <;> simp_all
  · rintro ⟨hall, ⟨t, rfl⟩, hnext⟩
    rw [List.drop_left] at hnext
    rw [List.takeWhile_append_of_pos (by simpa using hall)]
    cases t with
    | nil => simp
    | cons c t =>
      have hc : p c = false := by simpa using hnext
      simp [hc]

variable [DecidableEq α]

/-- The number of places of `s` at which `w` starts a maximal run, by recursion on `s`; the flag
    tells whether the element before `s` belongs to the class. -/
def runStarts (w : List α) : Bool → List α → ℕ
  | _, [] => 0
  | before, c :: cs =>
    (if before = false ∧ (c :: cs).takeWhile p = w then 1 else 0) + runStarts w (p c) cs

omit [DecidableEq α] in
theorem isRunAt_append {pre s w : List α} (hw : w ≠ []) :
    IsRunAt p (pre ++ s) w pre.length ↔ pre.getLast?.any p = false ∧ s.takeWhile p = w := by
  rw [takeWhile_eq_iff, IsRunAt, List.take_left, List.drop_left, ← List.drop_drop, List.drop_left]
  cases pre.getLast? <;> simp [hw]; tauto

theorem countP_isRunAt {w : List α} (hw : w ≠ []) (pre s : List α) :
    (List.range s.length).countP (fun i => decide (IsRunAt p (pre ++ s) w (pre.length + i)))
      = runStarts p w (pre.getLast?.any p) s := by
  induction s generalizing pre with
  | nil => simp [runStarts]
  | cons c cs ih =>
    have hshift := ih (pre ++ [c])
    rw [List.append_assoc, List.singleton_append, List.length_append, List.length_singleton,
      List.getLast?_append_cons] at hshift
    rw [List.length_cons, List.range_succ_eq_map, List.countP_cons, List.countP_map, runStarts,
      Nat.add_comm]
    congr 1
    · simp only [Nat.add_zero, decide_eq_true_eq, isRunAt_append p hw]
    · simpa [Function.comp_def, Nat.add_assoc, Nat.add_comm 1] using hshift

theorem runCount_eq_runStarts {w : List α} (hw : w ≠ []) (s : List α) :
    runCount p s w = runStarts p w false s := by
  simpa [runCount] using countP_isRunAt p hw [] s

theorem count_runPieces_aux {w : List α} (hw : w ≠ []) (s : List α) :
    (runPieces (fun c => !p c) false s).tail.count w = runStarts p w true s ∧
      ∀ inRun, (runPieces (fun c => !p c) inRun s).count w = runStarts p w false s := by
  induction s with
  | nil => simp [runPieces, runStarts, hw.symm]
  | cons c cs ih =>
    obtain ⟨htail, hpieces⟩ := ih
    by_cases hc : p c = true
    · have hnext : ∀ inRun, runPieces (fun c => !p c) inRun (c :: cs)
          = (c :: cs).takeWhile p :: (runPieces (fun c => !p c) false cs).tail := by
        intro inRun
        rw [runPieces, runPieces_false]
        simp [hc]
      refine ⟨by simp [hnext, runStarts, htail, hc], fun inRun => ?_⟩
      rw [hnext, List.count_cons, htail, runStarts, hc, Nat.add_comm]
      simp
    · have hne : ([] : List α) ≠ w := hw.symm
      cases hp : p c
      · refine ⟨by simp [runPieces, runStarts, hp, hpieces], fun inRun => ?_⟩
        cases inRun <;> simp [runPieces, runStarts, hp, hpieces, hne]
      · exact absurd hp hc

/-- The non-empty pieces between runs of the other elements are the maximal runs of the class,
    each as often as it stands in the list. -/
theorem count_runPieces {w : List α} (hw : w ≠ []) (s : List α) :
    (runPieces (fun c => !p c) false s).count w = runCount p s w := by
  rw [runCount_eq_runStarts p hw, (count_runPieces_aux p hw s).2]

end Split
