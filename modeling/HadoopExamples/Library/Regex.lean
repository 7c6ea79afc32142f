import Mathlib.Data.List.Infix

set_option autoImplicit false

/-! # Regular expressions with groups

Texts, repeated character classes, sequences and capturing groups: the part of regular expressions
where only classes are repeated. `Matches` says which lists an expression describes and what its
groups may capture there; `run` is the backtracking matcher, which lists the ways to match a first
part of the input, the longest repetition first. By `mem_run_iff` these are all the ways there are,
so a match of the whole input is found if there is one (`fullMatch_isSome_iff`); and a group of a
repetition at the start captures as much as it can (`length_le_of_fullMatch`). -/

inductive Regex (α : Type) where
  | text (w : List α)
  | one (p : α → Bool)
  | many (p : α → Bool)
  | seq (r r' : Regex α)
  | group (r : Regex α)

namespace Regex

variable {α : Type}

/-- `p+` -/
def plus (p : α → Bool) : Regex α := seq (one p) (many p)

/-- The expression describes the list, with these groups from left to right. -/
inductive Matches : Regex α → List α → List (List α) → Prop
  | text (w : List α) : Matches (text w) w []
  | one {p : α → Bool} {c : α} : p c = true → Matches (one p) [c] []
  | many {p : α → Bool} {w : List α} : (∀ c ∈ w, p c = true) → Matches (many p) w []
  | seq {r r' : Regex α} {w w' : List α} {gs gs' : List (List α)} : Matches r w gs →
    Matches r' w' gs' → Matches (seq r r') (w ++ w') (gs ++ gs')
  | group {r : Regex α} {w : List α} {gs : List (List α)} : Matches r w gs →
    Matches (group r) w (w :: gs)

def groupCount : Regex α → ℕ
  | text _ | one _ | many _ => 0
  | seq r r' => r.groupCount + r'.groupCount
  | group r => r.groupCount + 1

theorem Matches.length_groups {r : Regex α} {w : List α} {gs : List (List α)}
    (h : Matches r w gs) : gs.length = r.groupCount := by
  induction h with
  | text | one | many => rfl
  | seq _ _ ih ih' => rw [List.length_append, ih, ih', groupCount]
  | group _ ih => rw [List.length_cons, ih, groupCount]

/-- A group at the start captures a first part. -/
theorem Matches.first_prefix {r r' : Regex α} {w g : List α} {gs : List (List α)}
    (h : Matches (.seq (.group r) r') w (g :: gs)) : g <+: w := by
  generalize hall : g :: gs = all at h
  cases h with
  | seq hfirst _ =>
    cases hfirst
    rw [(List.cons.inj hall).1]
    exact List.prefix_append _ _

/-! ## The matcher -/

/-- A first part of the input that matches, with its groups, and the rest of the input. -/
structure Success (α : Type) where
  matched : List α
  groups : List (List α)
  rest : List α

/-- The ways to repeat a class, the longest first. -/
def runMany (p : α → Bool) : List α → List (Success α)
  | [] => [⟨[], [], []⟩]
  | c :: s =>
    if p c then (runMany p s).map (fun x => { x with matched := c :: x.matched }) ++ [⟨[], [], c :: s⟩]
    else [⟨[], [], c :: s⟩]

section Run

variable [DecidableEq α]

def run : Regex α → List α → List (Success α)
  | text w, s => if w.isPrefixOf s then [⟨w, [], s.drop w.length⟩] else []
  | one _, [] => []
  | one p, c :: s => if p c then [⟨[c], [], s⟩] else []
  | many p, s => runMany p s
  | seq r r', s => (run r s).flatMap fun x =>
    (run r' x.rest).map fun y => ⟨x.matched ++ y.matched, x.groups ++ y.groups, y.rest⟩
  | group r, s => (run r s).map fun x => { x with groups := x.matched :: x.groups }

/-- The groups of the first way to match the whole input. -/
def fullMatch (r : Regex α) (s : List α) : Option (List (List α)) :=
  ((run r s).find? fun x => x.rest.isEmpty).map Success.groups

end Run

/-! ## Soundness and completeness -/

theorem mem_runMany_iff {p : α → Bool} {s w t : List α} {gs : List (List α)} :
    ⟨w, gs, t⟩ ∈ runMany p s ↔ w ++ t = s ∧ (∀ c ∈ w, p c = true) ∧ gs = [] := by
  induction s generalizing w with
  | nil =>
    simp only [runMany, List.mem_singleton, Success.mk.injEq, List.append_eq_nil_iff]
    constructor
    · rintro ⟨rfl, rfl, rfl⟩
      exact ⟨⟨rfl, rfl⟩, nofun, rfl⟩
    · rintro ⟨⟨rfl, rfl⟩, _, rfl⟩
      exact ⟨rfl, rfl, rfl⟩
  | cons c s ih =>
    have hempty : ⟨w, gs, t⟩ ∈ [(⟨[], [], c :: s⟩ : Success α)] ↔ w = [] ∧ t = c :: s ∧ gs = [] := by
      simp only [List.mem_singleton, Success.mk.injEq]
      tauto
    have hmore : ⟨w, gs, t⟩ ∈ (runMany p s).map (fun x => { x with matched := c :: x.matched }) ↔
        ∃ w', w = c :: w' ∧ ⟨w', gs, t⟩ ∈ runMany p s := by
      rw [List.mem_map]
      constructor
      · rintro ⟨⟨w', gs', t'⟩, hmem, heq⟩
        obtain ⟨rfl, rfl, rfl⟩ := Success.mk.inj heq
        exact ⟨w', rfl, hmem⟩
      · rintro ⟨w', rfl, hmem⟩
        exact ⟨_, hmem, rfl⟩
    unfold runMany
    cases w with
    | nil =>
      split
      · rw [List.mem_append, hempty, hmore]
        simp
      · rw [hempty]
        simp
    | cons c' w =>
      split
      · rename_i hp
        rw [List.mem_append, hempty, hmore]
        simp only [ih, List.cons_append, List.cons.injEq, List.forall_mem_cons, reduceCtorEq,
          false_and, or_false]
        constructor
        · rintro ⟨_, ⟨rfl, rfl⟩, hsplit, hall, hgroups⟩
          exact ⟨⟨rfl, hsplit⟩, ⟨hp, hall⟩, hgroups⟩
        · rintro ⟨⟨rfl, hsplit⟩, ⟨_, hall⟩, hgroups⟩
          exact ⟨w, ⟨rfl, rfl⟩, hsplit, hall, hgroups⟩
      · rename_i hp
        rw [hempty]
        simp only [List.cons_append, List.cons.injEq, List.forall_mem_cons, reduceCtorEq, false_and,
          false_iff, not_and]
        rintro ⟨rfl, _⟩ ⟨hp', _⟩
        exact absurd hp' hp

section Correct

variable [DecidableEq α]

theorem mem_run_iff {r : Regex α} {s w t : List α} {gs : List (List α)} :
    ⟨w, gs, t⟩ ∈ run r s ↔ w ++ t = s ∧ Matches r w gs := by
  induction r generalizing s w gs t with
  | text w' =>
    unfold run
    split
    · rename_i hpre
      obtain ⟨rest, rfl⟩ := List.isPrefixOf_iff_prefix.1 hpre
      rw [List.mem_singleton, List.drop_left, Success.mk.injEq]
      constructor
      · rintro ⟨rfl, rfl, rfl⟩
        exact ⟨rfl, .text w⟩
      · rintro ⟨hsplit, hmatch⟩
        cases hmatch
        exact ⟨rfl, rfl, List.append_cancel_left hsplit⟩
    · rename_i hpre
      refine iff_of_false (List.not_mem_nil) ?_
      rintro ⟨rfl, hmatch⟩
      cases hmatch
      exact hpre (List.isPrefixOf_iff_prefix.2 (List.prefix_append _ _))
  | one p =>
    cases s with
    | nil =>
      refine iff_of_false (List.not_mem_nil) ?_
      rintro ⟨hsplit, hmatch⟩
      cases hmatch
      cases hsplit
    | cons c s =>
      unfold run
      split
      · rename_i hp
        rw [List.mem_singleton, Success.mk.injEq]
        constructor
        · rintro ⟨rfl, rfl, rfl⟩
          exact ⟨rfl, .one hp⟩
        · rintro ⟨hsplit, hmatch⟩
          cases hmatch
          obtain ⟨rfl, rfl⟩ := List.cons.inj hsplit
          exact ⟨rfl, rfl, rfl⟩
      · rename_i hp
        refine iff_of_false (List.not_mem_nil) ?_
        rintro ⟨hsplit, hmatch⟩
        cases hmatch with
        | one hp' =>
          obtain ⟨rfl, rfl⟩ := List.cons.inj hsplit
          exact hp hp'
  | many p =>
    rw [run, mem_runMany_iff]
    refine and_congr_right fun _ => ⟨?_, ?_⟩
    · rintro ⟨hall, rfl⟩
      exact .many hall
    · rintro hmatch
      cases hmatch with
      | many hall => exact ⟨hall, rfl⟩
  | seq r r' ih ih' =>
    simp only [run, List.mem_flatMap, List.mem_map, Success.mk.injEq]
    constructor
    · rintro ⟨⟨w₁, gs₁, t₁⟩, hx, ⟨w₂, gs₂, t₂⟩, hy, rfl, rfl, rfl⟩
      obtain ⟨rfl, hmatch⟩ := ih.1 hx
      obtain ⟨rfl, hmatch'⟩ := ih'.1 hy
      exact ⟨List.append_assoc _ _ _, .seq hmatch hmatch'⟩
    · rintro ⟨rfl, hmatch⟩
      cases hmatch with
      | @seq _ _ w₁ w₂ gs₁ gs₂ hmatch hmatch' =>
        exact ⟨⟨w₁, gs₁, w₂ ++ t⟩, ih.2 ⟨(List.append_assoc _ _ _).symm, hmatch⟩,
          ⟨w₂, gs₂, t⟩, ih'.2 ⟨rfl, hmatch'⟩, rfl, rfl, rfl⟩
  | group r ih =>
    simp only [run, List.mem_map, Success.mk.injEq]
    constructor
    · rintro ⟨⟨w', gs', t'⟩, hx, rfl, rfl, rfl⟩
      obtain ⟨hsplit, hmatch⟩ := ih.1 hx
      exact ⟨hsplit, .group hmatch⟩
    · rintro ⟨hsplit, hmatch⟩
      cases hmatch with
      | @group _ _ gs' hmatch => exact ⟨⟨w, gs', t⟩, ih.2 ⟨hsplit, hmatch⟩, rfl, rfl, rfl⟩

theorem matches_of_fullMatch {r : Regex α} {s : List α} {gs : List (List α)}
    (h : fullMatch r s = some gs) : Matches r s gs := by
  obtain ⟨⟨w, gs', t⟩, hfind, rfl⟩ := Option.map_eq_some_iff.1 h
  obtain ⟨hsplit, hmatch⟩ := mem_run_iff.1 (List.mem_of_find?_eq_some hfind)
  have hempty : t.isEmpty = true := by simpa using List.find?_some hfind
  have hend : t = [] := List.isEmpty_iff.1 hempty
  rw [hend, List.append_nil] at hsplit
  exact hsplit ▸ hmatch

/-- A match of the whole input is found if there is one. -/
theorem isSome_fullMatch_iff {r : Regex α} {s : List α} :
    (fullMatch r s).isSome = true ↔ ∃ gs, Matches r s gs := by
  refine ⟨fun h => ?_, fun h => ?_⟩
  · obtain ⟨gs, hgs⟩ := Option.isSome_iff_exists.1 h
    exact ⟨gs, matches_of_fullMatch hgs⟩
  · obtain ⟨gs, hmatch⟩ := h
    unfold fullMatch
    rw [Option.isSome_map, List.find?_isSome]
    exact ⟨⟨s, gs, []⟩, mem_run_iff.2 ⟨List.append_nil s, hmatch⟩, rfl⟩

instance (r : Regex α) (s : List α) : Decidable (∃ gs, Matches r s gs) :=
  decidable_of_iff _ isSome_fullMatch_iff

/-! ## Greedy groups -/

omit [DecidableEq α] in
theorem pairwise_runMany (p : α → Bool) (s : List α) :
    (runMany p s).Pairwise fun x y => y.matched.length ≤ x.matched.length := by
  induction s with
  | nil => exact List.pairwise_singleton _ _
  | cons c s ih =>
    unfold runMany
    split
    · rw [List.pairwise_append, List.pairwise_map]
      refine ⟨ih.imp fun h => Nat.succ_le_succ h, List.pairwise_singleton _ _, ?_⟩
      intro x _ y hy
      rw [List.mem_singleton.1 hy]
      exact Nat.zero_le _
    · exact List.pairwise_singleton _ _

/-- The first group of one way to match is no longer than that of another. -/
def FirstLe (x y : Success α) : Prop :=
  ∀ g ∈ x.groups.head?, ∀ g' ∈ y.groups.head?, g'.length ≤ g.length

theorem pairwise_run (p : α → Bool) (r : Regex α) (s : List α) :
    (run (seq (group (many p)) r) s).Pairwise FirstLe := by
  -- the first group is what the repetition matches
  have hfirst : ∀ {x y : Success α}, y ∈ ((run r x.rest).map fun y =>
      (⟨x.matched ++ y.matched, x.matched :: x.groups ++ y.groups, y.rest⟩ : Success α)) →
      y.groups.head? = some x.matched := by
    intro x y hy
    obtain ⟨_, _, rfl⟩ := List.mem_map.1 hy
    rfl
  simp only [run, List.flatMap_map]
  rw [List.pairwise_flatMap]
  refine ⟨fun x _ => ?_, (pairwise_runMany p s).imp ?_⟩
  · refine List.pairwise_of_forall_mem_list fun y hy y' hy' => ?_
    intro g hg g' hg'
    rw [hfirst hy] at hg
    rw [hfirst hy'] at hg'
    rw [← Option.some.inj hg, ← Option.some.inj hg']
  · intro x x' hle y hy y' hy' g hg g' hg'
    rw [hfirst hy] at hg
    rw [hfirst hy'] at hg'
    rw [← Option.some.inj hg, ← Option.some.inj hg']
    exact hle

/-- A repetition in a group at the start of an expression captures as much as it can. -/
theorem length_le_of_fullMatch {p : α → Bool} {r : Regex α} {s g g' : List α}
    {gs gs' : List (List α)} (h : fullMatch (seq (group (many p)) r) s = some (g :: gs))
    (h' : Matches (seq (group (many p)) r) s (g' :: gs')) : g'.length ≤ g.length := by
  obtain ⟨x, hfind, hgroups⟩ := Option.map_eq_some_iff.1 h
  have hmem : ⟨s, g' :: gs', []⟩ ∈ run (seq (group (many p)) r) s :=
    mem_run_iff.2 ⟨List.append_nil s, h'⟩
  have hpairs := pairwise_run p r s
  obtain ⟨_, before, after, hrun, hbefore⟩ := List.find?_eq_some_iff_append.1 hfind
  rw [hrun] at hmem hpairs
  rcases List.mem_append.1 hmem with hearlier | hmem
  · have := hbefore _ hearlier
    cases this
  · rcases List.mem_cons.1 hmem with hsame | hlater
    · rw [← hsame] at hgroups
      rw [(List.cons.inj hgroups).1]
    · have hle := (List.pairwise_cons.1 (List.pairwise_append.1 hpairs).2.1).1 _ hlater
      exact hle g (by rw [hgroups]; rfl) g' rfl

end Correct

end Regex
