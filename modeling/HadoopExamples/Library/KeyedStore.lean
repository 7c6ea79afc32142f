import Mathlib.Data.List.Dedup
import HadoopExamples.Library.Transition

set_option autoImplicit false

/-! # Stores with one entry for each key

A store maps finitely many keys to values, and its one operation is `update`, which writes the
entry of a key from what is there, if anything. A sequence of updates is a run of the store.

A run from the empty store has as many keys as its updates have different keys, and no update of it
hits an entry that is already there if and only if they all differ. -/

/-- The entries of the store, no two of them under one key. -/
structure KeyedStore (κ ν : Type) where
  entries : List (κ × ν)
  nodup : (entries.map Prod.fst).Nodup

namespace KeyedStore

variable {κ ν ε : Type}

def empty : KeyedStore κ ν := ⟨[], List.nodup_nil⟩

def keys (s : KeyedStore κ ν) : List κ := s.entries.map Prod.fst

@[simp] theorem keys_empty : (empty : KeyedStore κ ν).keys = [] := rfl

section Update

variable [DecidableEq κ]

/-- The value under a key. -/
def find? (s : KeyedStore κ ν) (k : κ) : Option ν := s.entries.lookup k

/-- The entries with that of `k` written from what is there. -/
def updateEntries (k : κ) (f : Option ν → ν) : List (κ × ν) → List (κ × ν)
  | [] => [(k, f none)]
  | (k', v) :: rest =>
    if k' = k then (k, f (some v)) :: rest else (k', v) :: updateEntries k f rest

theorem keys_updateEntries (k : κ) (f : Option ν → ν) (entries : List (κ × ν)) :
    (updateEntries k f entries).map Prod.fst
      = if k ∈ entries.map Prod.fst then entries.map Prod.fst
        else entries.map Prod.fst ++ [k] := by
  induction entries with
  | nil => simp [updateEntries]
  | cons e rest ih =>
    obtain ⟨k', v⟩ := e
    unfold updateEntries
    by_cases hk : k' = k
    · simp [hk]
    · rw [if_neg hk, List.map_cons, ih, List.map_cons]
      by_cases hmem : k ∈ rest.map Prod.fst
      · rw [if_pos hmem, if_pos (List.mem_cons_of_mem _ hmem)]
      · rw [if_neg hmem, if_neg (by simp [hmem, Ne.symm hk]), List.cons_append]

theorem lookup_cons_ne {k k' : κ} (hk : k' ≠ k) (v : ν) (entries : List (κ × ν)) :
    ((k, v) :: entries).lookup k' = entries.lookup k' := by
  rw [List.lookup_cons, beq_false_of_ne hk]

theorem lookup_updateEntries (k k' : κ) (f : Option ν → ν) (entries : List (κ × ν)) :
    (updateEntries k f entries).lookup k'
      = if k' = k then some (f (entries.lookup k)) else entries.lookup k' := by
  induction entries with
  | nil =>
    unfold updateEntries
    by_cases hk : k' = k
    · simp [hk]
    · rw [lookup_cons_ne hk, if_neg hk]
  | cons e rest ih =>
    obtain ⟨j, v⟩ := e
    unfold updateEntries
    by_cases hj : j = k
    · rw [if_pos hj, hj, List.lookup_cons_self]
      by_cases hk : k' = k
      · rw [if_pos hk, hk, List.lookup_cons_self]
      · rw [if_neg hk, lookup_cons_ne hk, lookup_cons_ne hk]
    · rw [if_neg hj]
      by_cases hk : k' = k
      · rw [if_pos hk] at ih
        rw [if_pos hk, lookup_cons_ne (hk ▸ Ne.symm hj), ih, lookup_cons_ne (Ne.symm hj)]
      · rw [if_neg hk] at ih
        rw [if_neg hk, List.lookup_cons, List.lookup_cons, ih]

def update (s : KeyedStore κ ν) (k : κ) (f : Option ν → ν) : KeyedStore κ ν where
  entries := updateEntries k f s.entries
  nodup := by
    rw [keys_updateEntries]
    split
    · exact s.nodup
    · rename_i hmem
      exact List.nodup_append.2 ⟨s.nodup, List.nodup_singleton k, by
        intro a ha b hb
        rw [List.mem_singleton.1 hb]
        exact fun heq => hmem (heq ▸ ha)⟩

theorem keys_update (s : KeyedStore κ ν) (k : κ) (f : Option ν → ν) :
    (s.update k f).keys = if k ∈ s.keys then s.keys else s.keys ++ [k] :=
  keys_updateEntries k f s.entries

@[simp] theorem mem_keys_update {s : KeyedStore κ ν} {k k' : κ} {f : Option ν → ν} :
    k' ∈ (s.update k f).keys ↔ k' ∈ s.keys ∨ k' = k := by
  rw [keys_update]
  split
  · rename_i hmem
    refine ⟨Or.inl, ?_⟩
    rintro (h | rfl)
    · exact h
    · exact hmem
  · simp

@[simp] theorem find?_update (s : KeyedStore κ ν) (k k' : κ) (f : Option ν → ν) :
    (s.update k f).find? k' = if k' = k then some (f (s.find? k)) else s.find? k' :=
  lookup_updateEntries k k' f s.entries

theorem mem_entries_iff {s : KeyedStore κ ν} {k : κ} {v : ν} :
    (k, v) ∈ s.entries ↔ s.find? k = some v := by
  obtain ⟨entries, hnodup⟩ := s
  unfold find?
  induction entries with
  | nil => simp
  | cons e rest ih =>
    obtain ⟨j, w⟩ := e
    rw [List.map_cons, List.nodup_cons] at hnodup
    have hrest := ih hnodup.2
    simp only at hrest ⊢
    by_cases hj : k = j
    · have hnot : (j, v) ∉ rest := fun h => hnodup.1 (List.mem_map.2 ⟨_, h, rfl⟩)
      rw [hj, List.lookup_cons_self]
      simp [hnot, eq_comm]
    · rw [lookup_cons_ne hj, ← hrest]
      simp [hj]

@[simp] theorem find?_empty (k : κ) : (empty : KeyedStore κ ν).find? k = none := rfl

end Update

/-! ## Runs of updates -/

section Runs

variable [DecidableEq κ] (key : ε → κ) (value : ε → Option ν → ν)

/-- The update of an event. -/
def step (s : KeyedStore κ ν) (e : ε) : KeyedStore κ ν := s.update (key e) (value e)

theorem mem_keys_run {s : KeyedStore κ ν} {es : List ε} {k : κ} :
    k ∈ (Transition.run (step key value) s es).keys ↔ k ∈ s.keys ∨ k ∈ es.map key := by
  induction es generalizing s with
  | nil => simp
  | cons e es ih =>
    rw [Transition.run_cons, ih, step, mem_keys_update, List.map_cons, List.mem_cons, or_assoc]

/-- A run has one key for each different key of its updates. -/
theorem length_keys_run (es : List ε) :
    (Transition.run (step key value) empty es).keys.length = (es.map key).dedup.length := by
  refine List.Perm.length_eq ((List.perm_ext_iff_of_nodup ?_ (List.nodup_dedup _)).2 ?_)
  · exact (Transition.run (step key value) empty es).nodup
  · intro k
    simp [mem_keys_run]

/-- Every update of the run has a key that is in a relation to all keys that are already there. -/
theorem guarded_keys_iff (r : κ → κ → Prop) (s : KeyedStore κ ν) (es : List ε) :
    Transition.Guarded (step key value) (fun s e => ∀ k ∈ s.keys, r k (key e)) s es ↔
      (es.map key).Pairwise r ∧ ∀ e ∈ es, ∀ k ∈ s.keys, r k (key e) := by
  induction es generalizing s with
  | nil => simp [Transition.Guarded]
  | cons e es ih =>
    rw [Transition.Guarded, ih, List.map_cons, List.pairwise_cons]
    simp only [step, mem_keys_update, List.mem_map, List.forall_mem_cons, forall_exists_index,
      and_imp, forall_apply_eq_imp_iff₂]
    constructor
    · rintro ⟨hfirst, hpairs, hrest⟩
      exact ⟨⟨fun e' he' => hrest e' he' _ (Or.inr rfl), hpairs⟩, hfirst,
        fun e' he' k hk => hrest e' he' k (Or.inl hk)⟩
    · rintro ⟨⟨hnew, hpairs⟩, hfirst, hrest⟩
      refine ⟨hfirst, hpairs, fun e' he' k hk => ?_⟩
      rcases hk with hk | rfl
      · exact hrest e' he' k hk
      · exact hnew e' he'

/-- No update of the run hits an entry that is already there. -/
def Fresh (es : List ε) : Prop :=
  Transition.Guarded (step key value) (fun s e => key e ∉ s.keys) empty es

theorem fresh_iff (es : List ε) : Fresh key value es ↔ (es.map key).Nodup := by
  have hguard : (fun (s : KeyedStore κ ν) e => key e ∉ s.keys)
      = fun s e => ∀ k ∈ s.keys, k ≠ key e := by
    funext s e
    simp [List.forall_mem_ne']
  unfold Fresh
  rw [hguard, guarded_keys_iff]
  simp [List.Nodup]

/-- A run has as many keys as updates only if no update hits an entry that is there. -/
theorem length_keys_run_eq_iff (es : List ε) :
    (Transition.run (step key value) empty es).keys.length = es.length ↔ Fresh key value es := by
  have hlength : (es.map key).length = es.length := List.length_map key
  rw [length_keys_run, fresh_iff, ← hlength]
  refine ⟨fun h => ?_, fun h => by rw [List.dedup_eq_self.2 h]⟩
  exact List.dedup_eq_self.1 ((List.dedup_sublist _).eq_of_length h)

end Runs

end KeyedStore
