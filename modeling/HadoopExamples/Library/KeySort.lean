import Mathlib.Data.List.Sort
import Mathlib.Data.List.TakeWhile

set_option autoImplicit false

/-! # Reports in the order of a key

`sortBy` is the stable sort by a key, and a report is the concatenation of the entries' texts in
that order. A stable sort keeps entries that tie in the order of its input, so a report depends on
that order exactly where the texts of entries that tie do not commute (`report_perm_iff`). -/

namespace KeySort

variable {β κ α : Type}

/-! ## Texts that commute -/

/-- The texts of entries that tie can be exchanged. -/
def TiesCommute (key : β → κ) (text : β → List α) (l : List β) : Prop :=
  ∀ a ∈ l, ∀ b ∈ l, key a = key b → text a ++ text b = text b ++ text a

theorem tiesCommute_of_nodup {key : β → κ} {l : List β} (h : (l.map key).Nodup)
    (text : β → List α) : TiesCommute key text l := by
  intro a ha b hb htie
  rw [List.inj_on_of_nodup_map h ha hb htie]

theorem TiesCommute.perm {key : β → κ} {text : β → List α} {l l' : List β}
    (h : TiesCommute key text l) (hperm : l.Perm l') : TiesCommute key text l' :=
  fun a ha b hb => h a (hperm.symm.subset ha) b (hperm.symm.subset hb)

/-- A text that commutes with each text of a list commutes with their concatenation. -/
theorem flatMap_append_comm {text : β → List α} {l : List β} {u : List α}
    (h : ∀ b ∈ l, text b ++ u = u ++ text b) : l.flatMap text ++ u = u ++ l.flatMap text := by
  induction l with
  | nil => simp
  | cons b l ih =>
    have hrest := ih fun c hc => h c (List.mem_cons_of_mem _ hc)
    calc (b :: l).flatMap text ++ u
        = text b ++ (l.flatMap text ++ u) := by rw [List.flatMap_cons, List.append_assoc]
      _ = (text b ++ u) ++ l.flatMap text := by rw [hrest, List.append_assoc]
      _ = u ++ (b :: l).flatMap text := by
        rw [h b (List.mem_cons_self ..), List.flatMap_cons, List.append_assoc]

/-! ## The sort -/

variable [LinearOrder κ]

/-- The stable sort by a key. -/
def sortBy (key : β → κ) (l : List β) : List β :=
  l.insertionSort fun a b => key a ≤ key b

theorem sortBy_perm (key : β → κ) (l : List β) : (sortBy key l).Perm l :=
  List.perm_insertionSort _ l

theorem pairwise_sortBy (key : β → κ) (l : List β) :
    (sortBy key l).Pairwise fun a b => key a ≤ key b := by
  have htotal : Std.Total fun a b : β => key a ≤ key b := ⟨fun a b => le_total (key a) (key b)⟩
  have htrans : IsTrans β fun a b => key a ≤ key b := ⟨fun a b c => le_trans⟩
  exact List.pairwise_insertionSort _ l

/-- An insertion splits a list where the keys stop being smaller. -/
theorem sortBy_cons (key : β → κ) (a : β) (l : List β) :
    sortBy key (a :: l) =
      (sortBy key l).takeWhile (fun b => key b < key a) ++
        a :: (sortBy key l).dropWhile (fun b => key b < key a) := by
  unfold sortBy
  rw [List.insertionSort_cons, List.orderedInsert_eq_take_drop]
  simp only [not_le]

/-- Two entries that tie stay next to each other and in their order. -/
theorem sortBy_cons_cons {key : β → κ} {a b : β} (htie : key a = key b) (l : List β) :
    sortBy key (a :: b :: l) =
      (sortBy key l).takeWhile (fun c => key c < key a) ++
        a :: b :: (sortBy key l).dropWhile (fun c => key c < key a) := by
  have hsmall : ∀ c ∈ (sortBy key l).takeWhile (fun c => key c < key a),
      decide (key c < key a) = true := by
    intro c hc
    exact List.mem_takeWhile_imp (p := fun c => decide (key c < key a)) hc
  rw [sortBy_cons, sortBy_cons, ← htie, List.takeWhile_append_of_pos hsmall,
    List.dropWhile_append_of_pos hsmall]
  simp [htie]

/-! ## Reports -/

/-- The texts of the entries, in the order of their keys. -/
def report (key : β → κ) (text : β → List α) (l : List β) : List α :=
  (sortBy key l).flatMap text

section Reports

variable {key : β → κ} {text : β → List α} {l l' : List β}

/-- Two sorted arrangements of the same entries read the same if ties commute. -/
theorem flatMap_eq_of_sorted (hties : TiesCommute key text l) (hperm : l.Perm l')
    (hl : l.Pairwise fun a b => key a ≤ key b) (hl' : l'.Pairwise fun a b => key a ≤ key b) :
    l.flatMap text = l'.flatMap text := by
  induction l generalizing l' with
  | nil => rw [hperm.nil_eq]
  | cons a l ih =>
    -- `a` comes first in `l`, so all that comes before it in `l'` ties with it
    obtain ⟨before, after, rfl⟩ := List.append_of_mem (hperm.subset (List.mem_cons_self ..))
    have hrest : l.Perm (before ++ after) := (hperm.trans List.perm_middle).cons_inv
    obtain ⟨hfirst, hl⟩ := List.pairwise_cons.1 hl
    have hbefore : ∀ b ∈ before, b ∈ l := fun b hb =>
      hrest.symm.subset (List.mem_append_left _ hb)
    have hcomm : before.flatMap text ++ text a = text a ++ before.flatMap text := by
      refine flatMap_append_comm fun b hb => ?_
      have hle : key b ≤ key a :=
        (List.pairwise_append.1 hl').2.2 b hb a (List.mem_cons_self ..)
      have htie : key b = key a := le_antisymm hle (hfirst b (hbefore b hb))
      exact hties b (List.mem_cons_of_mem _ (hbefore b hb)) a (List.mem_cons_self ..) htie
    have hl'' : (before ++ after).Pairwise fun a b => key a ≤ key b :=
      hl'.sublist ((List.sublist_cons_self a after).append_left before)
    have hties' : TiesCommute key text l := fun b hb c hc =>
      hties b (List.mem_cons_of_mem _ hb) c (List.mem_cons_of_mem _ hc)
    calc (a :: l).flatMap text
        = text a ++ (before ++ after).flatMap text := by
          rw [List.flatMap_cons, ih hties' hrest hl hl'']
      _ = (text a ++ before.flatMap text) ++ after.flatMap text := by
          rw [List.flatMap_append, List.append_assoc]
      _ = (before ++ a :: after).flatMap text := by
          rw [← hcomm, List.flatMap_append, List.flatMap_cons, List.append_assoc]

/-- If ties commute, a report does not depend on the order of its input. -/
theorem report_perm (hties : TiesCommute key text l) (hperm : l.Perm l') :
    report key text l = report key text l' := by
  have hsort : (sortBy key l).Perm (sortBy key l') :=
    (sortBy_perm key l).trans (hperm.trans (sortBy_perm key l').symm)
  exact flatMap_eq_of_sorted (hties.perm (sortBy_perm key l).symm) hsort (pairwise_sortBy key l)
    (pairwise_sortBy key l')

/-- A report that does not depend on the order of its input lets ties commute. -/
theorem report_perm_iff :
    (∀ l', l.Perm l' → report key text l' = report key text l) ↔ TiesCommute key text l := by
  refine ⟨fun h a ha b hb htie => ?_, fun hties l' hperm => (report_perm hties hperm).symm⟩
  rcases Classical.em (a = b) with rfl | hne
  · rfl
  obtain ⟨rest, hperm⟩ : ∃ rest, l.Perm (a :: b :: rest) := by
    obtain ⟨p, q, rfl⟩ := List.append_of_mem ha
    have hb' : b ∈ p ++ q := by
      rcases List.mem_cons.1 (List.perm_middle.subset hb) with rfl | hb'
      · exact absurd rfl hne
      · exact hb'
    obtain ⟨p', q', hpq⟩ := List.append_of_mem hb'
    refine ⟨p' ++ q', List.perm_middle.trans ?_⟩
    rw [hpq]
    exact List.perm_middle.cons a
  -- the two orders of `a` and `b` differ in the output just there
  have hab := h _ hperm
  have hba := h _ (hperm.trans (List.Perm.swap b a rest))
  have heq := hab.trans hba.symm
  unfold report at heq
  rw [sortBy_cons_cons htie, sortBy_cons_cons htie.symm, ← htie] at heq
  simp only [List.flatMap_append, List.flatMap_cons, ← List.append_assoc,
    List.append_cancel_right_eq] at heq
  simp only [List.append_assoc, List.append_cancel_left_eq] at heq
  exact heq

/-- A report needs no more of an entry than its key and its text. -/
theorem report_eq_map (key : β → κ) (text : β → List α) (l : List β) :
    report key text l = report Prod.fst Prod.snd (l.map fun b => (key b, text b)) := by
  unfold report sortBy
  rw [← List.map_insertionSort (fun a b => key a ≤ key b) _ (fun b => (key b, text b)) l
    (fun a _ b _ => Iff.rfl), List.flatMap_map]

/-- Lists whose entries agree in keys and texts, up to their order, have the same report. -/
theorem report_congr {R : β → β → Prop} {m : List β} (hties : TiesCommute key text l)
    (hperm : l.Perm m) (hR : List.Forall₂ R m l') (hkey : ∀ a b, R a b → key a = key b)
    (htext : ∀ a b, R a b → text a = text b) : report key text l = report key text l' := by
  have hmap : (m.map fun b => (key b, text b)) = l'.map fun b => (key b, text b) := by
    rw [← List.forall₂_eq_eq_eq, List.forall₂_map_left_iff, List.forall₂_map_right_iff]
    exact hR.imp fun a b hab => Prod.ext (hkey a b hab) (htext a b hab)
  rw [report_perm hties hperm, report_eq_map, hmap, ← report_eq_map]

end Reports

end KeySort
