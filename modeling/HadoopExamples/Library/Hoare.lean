import Mathlib.Data.List.Basic

set_option autoImplicit false

/-! # Pre- and postconditions of programs that can fail

A program is an `EStateM`: from a state it returns a value and a state, or fails with an error in a
state. `Triple P p Q E` says of the states with `P` that `p` returns with `Q` or fails with `E`, so
that one triple tells what holds of a run wherever it stops.

The rules go by the shape of a program; `Triple.foldlM` is the rule for loops, whose invariant is
about the elements that the loop is through with. -/

namespace Hoare

variable {ε σ α β : Type}

/-- From a state with `P`, the program returns with `Q` or fails with `E`. -/
def Triple (P : σ → Prop) (p : EStateM ε σ α) (Q : α → σ → Prop) (E : ε → σ → Prop) : Prop :=
  ∀ s, P s → match p s with
    | .ok a s' => Q a s'
    | .error e s' => E e s'

variable {P P' : σ → Prop} {Q Q' : α → σ → Prop} {R : β → σ → Prop} {E E' : ε → σ → Prop}
  {p : EStateM ε σ α} {next : α → EStateM ε σ β}

theorem Triple.pure {a : α} (h : ∀ s, P s → Q a s) :
    Triple P (pure a : EStateM ε σ α) Q E := h

theorem Triple.bind (hp : Triple P p Q E) (hnext : ∀ a, Triple (Q a) (next a) R E) :
    Triple P (p >>= next) R E := by
  intro s hs
  have hfirst := hp s hs
  show match EStateM.bind p next s with
    | .ok b s' => R b s'
    | .error e s' => E e s'
  unfold EStateM.bind
  cases hrun : p s with
  | ok a s' =>
    rw [hrun] at hfirst
    exact hnext a s' hfirst
  | error e s' =>
    rw [hrun] at hfirst
    exact hfirst

theorem Triple.weaken (h : Triple P p Q E) (hP : ∀ s, P' s → P s) (hQ : ∀ a s, Q a s → Q' a s)
    (hE : ∀ e s, E e s → E' e s) : Triple P' p Q' E' := by
  intro s hs
  have hrun := h s (hP s hs)
  cases hp : p s with
  | ok a s' =>
    rw [hp] at hrun
    exact hQ a s' hrun
  | error e s' =>
    rw [hp] at hrun
    exact hE e s' hrun

/-- The loop rule: each pass takes the invariant of what is done to the invariant of one element
    more. -/
theorem Triple.foldlM {f : β → α → EStateM ε σ β} {l : List α} (inv : List α → β → σ → Prop)
    (hstep : ∀ done x todo b, l = done ++ x :: todo →
      Triple (inv done b) (f b x) (inv (done ++ [x])) E) (b : β) :
    Triple (inv [] b) (l.foldlM f b) (inv l) E := by
  have hrest : ∀ todo done b, l = done ++ todo →
      Triple (inv done b) (todo.foldlM f b) (inv l) E := by
    intro todo
    induction todo with
    | nil =>
      intro done b hl
      rw [List.append_nil] at hl
      rw [List.foldlM_nil, hl]
      exact Triple.pure fun _ h => h
    | cons x todo ih =>
      intro done b hl
      rw [List.foldlM_cons]
      refine Triple.bind (hstep done x todo b hl) fun b' => ih (done ++ [x]) b' ?_
      rw [hl, List.append_assoc, List.singleton_append]
  exact hrest l [] b rfl

/-- In a loop that counts, the next number tells how many are done. -/
theorem eq_of_range'_eq_append {first n x : ℕ} {done todo : List ℕ}
    (h : List.range' first n = done ++ x :: todo) :
    x = first + done.length ∧ done.length < n := by
  have hlength := congrArg List.length h
  rw [List.length_range', List.length_append, List.length_cons] at hlength
  have hget : (List.range' first n)[done.length]? = some x := by
    rw [h, List.getElem?_append_right (Nat.le_refl _), Nat.sub_self]
    rfl
  obtain ⟨_, hvalue⟩ := List.getElem?_eq_some_iff.1 hget
  rw [List.getElem_range', Nat.one_mul] at hvalue
  exact ⟨hvalue.symm, by omega⟩

/-! ## What a run tells -/

theorem ok_of_bind {s s' : σ} {b : β} (h : (p >>= next) s = .ok b s') :
    ∃ a s₁, p s = .ok a s₁ ∧ next a s₁ = .ok b s' := by
  have hrun : EStateM.bind p next s = .ok b s' := h
  unfold EStateM.bind at hrun
  cases hp : p s with
  | ok a s₁ =>
    rw [hp] at hrun
    exact ⟨a, s₁, rfl, hrun⟩
  | error e s₁ =>
    rw [hp] at hrun
    cases hrun

theorem bind_of_ok {s s₁ : σ} {a : α} (h : p s = .ok a s₁) : (p >>= next) s = next a s₁ := by
  show EStateM.bind p next s = _
  unfold EStateM.bind
  rw [h]

theorem bind_of_error {s s₁ : σ} {e : ε} (h : p s = .error e s₁) :
    (p >>= next) s = .error e s₁ := by
  show EStateM.bind p next s = _
  unfold EStateM.bind
  rw [h]

theorem Triple.of_ok (h : Triple P p Q E) {s s' : σ} {a : α} (hs : P s) (hrun : p s = .ok a s') :
    Q a s' := by
  have hend := h s hs
  rwa [hrun] at hend

theorem Triple.of_error (h : Triple P p Q E) {s s' : σ} {e : ε} (hs : P s)
    (hrun : p s = .error e s') : E e s' := by
  have hend := h s hs
  rwa [hrun] at hend

/-- A program that cannot fail returns. -/
theorem Triple.returns (h : Triple P p Q E) {s : σ} (hs : P s) (hE : ∀ e s', ¬ E e s') :
    ∃ a s', p s = .ok a s' ∧ Q a s' := by
  have hrun := h s hs
  cases hp : p s with
  | ok a s' =>
    rw [hp] at hrun
    exact ⟨a, s', rfl, hrun⟩
  | error e s' =>
    rw [hp] at hrun
    exact absurd hrun (hE e s')

/-! ## What a program keeps and raises -/

/-- Whether the program returns or raises an exception, `I` goes on to hold, and the exception is
    one with `F`. -/
def Keeps (I : σ → Prop) (p : EStateM ε σ α) (F : ε → Prop) : Prop :=
  Triple I p (fun _ s => I s) fun e s => F e ∧ I s

section Keeps

variable {I : σ → Prop} {F : ε → Prop}

theorem Keeps.modify {f : σ → σ} (h : ∀ s, I s → I (f s)) :
    Keeps I (modify f : EStateM ε σ Unit) F := h

theorem Keeps.pure (a : α) : Keeps I (pure a : EStateM ε σ α) F := Triple.pure fun _ h => h

theorem Keeps.throw {e : ε} (h : F e) : Keeps I (throw e : EStateM ε σ α) F :=
  fun _ hs => ⟨h, hs⟩

theorem Keeps.bind (hp : Keeps I p F) (hnext : ∀ a, Keeps I (next a) F) :
    Keeps I (p >>= next) F :=
  Triple.bind hp hnext

theorem Keeps.ofExcept {r : Except ε α} (herror : ∀ e, r = .error e → F e)
    (hnext : ∀ a, r = .ok a → Keeps I (next a) F) : Keeps I (do next (← ofExcept r)) F := by
  cases r with
  | error e => exact Keeps.throw (herror e rfl)
  | ok a => exact hnext a rfl

theorem Keeps.forM {l : List α} {f : α → EStateM ε σ Unit} (h : ∀ a ∈ l, Keeps I (f a) F) :
    Keeps I (l.forM f) F := by
  induction l with
  | nil => exact Keeps.pure ()
  | cons a l ih =>
    exact Keeps.bind (h a List.mem_cons_self) fun _ =>
      ih fun a' h' => h a' (List.mem_cons_of_mem _ h')

end Keeps

end Hoare
