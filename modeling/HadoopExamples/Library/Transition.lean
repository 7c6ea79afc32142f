import Mathlib.Data.List.Basic

set_option autoImplicit false

/-! # Runs of a deterministic transition function

A system is a step function `σ → ε → σ` on states and events; a run feeds it a list of events.
`Transition.states` lists every state a run reaches, the first one included, and
`Transition.Guarded` says that every step of a run is taken from a state that allows the event.

The induction over a run is done once here: `states_invariant` lifts what one guarded step
preserves to all states of a guarded run, and `states_iff_guarded` is its sharp form, for a guard
that is exactly what a step needs in order to keep the invariant. -/

namespace Transition

variable {σ ε : Type} (step : σ → ε → σ)

/-- The state a run ends in. -/
def run (s : σ) (es : List ε) : σ := es.foldl step s

@[simp] theorem run_nil (s : σ) : run step s [] = s := rfl

@[simp] theorem run_cons (s : σ) (e : ε) (es : List ε) :
    run step s (e :: es) = run step (step s e) es := rfl

@[simp] theorem run_append (s : σ) (es fs : List ε) :
    run step s (es ++ fs) = run step (run step s es) fs :=
  List.foldl_append

/-- The states a run goes through, from the first to the last. -/
def states : σ → List ε → List σ
  | s, [] => [s]
  | s, e :: es => s :: states (step s e) es

theorem mem_states_self (s : σ) (es : List ε) : s ∈ states step s es := by
  cases es <;> simp [states]

theorem run_mem_states (s : σ) (es : List ε) : run step s es ∈ states step s es := by
  induction es generalizing s with
  | nil => simp [states]
  | cons e es ih => exact List.mem_cons_of_mem _ (ih (step s e))

/-- Every step of the run is taken from a state that allows its event. -/
def Guarded (guard : σ → ε → Prop) : σ → List ε → Prop
  | _, [] => True
  | s, e :: es => guard s e ∧ Guarded guard (step s e) es

instance Guarded.decidable (guard : σ → ε → Prop) [∀ s e, Decidable (guard s e)] :
    ∀ (s : σ) (es : List ε), Decidable (Guarded step guard s es)
  | _, [] => inferInstanceAs (Decidable True)
  | s, e :: es =>
    have := Guarded.decidable guard (step s e) es
    inferInstanceAs (Decidable (guard s e ∧ Guarded step guard (step s e) es))

variable {step} {guard : σ → ε → Prop} {inv : σ → Prop}

/-- A guard on the events alone holds along a run as soon as it holds of every event. -/
theorem guarded_of_forall {ok : ε → Prop} {s : σ} {es : List ε} (h : ∀ e ∈ es, ok e) :
    Guarded step (fun _ e => ok e) s es := by
  induction es generalizing s with
  | nil => trivial
  | cons e es ih =>
    exact ⟨h e (List.mem_cons_self ..), ih (fun e' he' => h e' (List.mem_cons_of_mem _ he'))⟩

theorem Guarded.and {guard' : σ → ε → Prop} {s : σ} {es : List ε} (h : Guarded step guard s es)
    (h' : Guarded step guard' s es) : Guarded step (fun s e => guard s e ∧ guard' s e) s es := by
  induction es generalizing s with
  | nil => trivial
  | cons e es ih => exact ⟨⟨h.1, h'.1⟩, ih h.2 h'.2⟩

/-- What one guarded step preserves holds in every state of a guarded run. -/
theorem states_invariant (hstep : ∀ s e, guard s e → inv s → inv (step s e)) {s : σ}
    {es : List ε} (hs : inv s) (hg : Guarded step guard s es) : ∀ t ∈ states step s es, inv t := by
  induction es generalizing s with
  | nil =>
    intro t ht
    rw [List.mem_singleton.1 ht]
    exact hs
  | cons e es ih =>
    intro t ht
    rcases List.mem_cons.1 ht with rfl | ht
    · exact hs
    · exact ih (hstep s e hg.1 hs) hg.2 t ht

/-- The run lemma for the final state of a guarded run. -/
theorem run_invariant (hstep : ∀ s e, guard s e → inv s → inv (step s e)) {s : σ}
    {es : List ε} (hs : inv s) (hg : Guarded step guard s es) : inv (run step s es) :=
  states_invariant hstep hs hg _ (run_mem_states step s es)

/-- A property that no step can bring about, if it holds at the end, held all the way. -/
theorem guarded_of_final {P : σ → Prop} (hback : ∀ s e, P (step s e) → P s) {s : σ} {es : List ε}
    (hfinal : P (run step s es)) : Guarded step (fun s e => P (step s e)) s es := by
  have hfirst : ∀ (es : List ε) (s : σ), P (run step s es) → P s := by
    intro es
    induction es with
    | nil => intro s h; exact h
    | cons e es ih => intro s h; exact hback s e (ih (step s e) h)
  induction es generalizing s with
  | nil => trivial
  | cons e es ih => exact ⟨hfirst es (step s e) hfinal, ih hfinal⟩

/-- Two systems that go along with each other, on the events in `ok`, have the same guarded runs,
    if the guards say the same of them. -/
theorem guarded_iff_of_rel {τ : Type} {step' : τ → ε → τ} {guard' : τ → ε → Prop}
    {rel : σ → τ → Prop} {ok : ε → Prop}
    (hstep : ∀ s t e, ok e → rel s t → rel (step s e) (step' t e))
    (hguard : ∀ s t e, rel s t → (guard s e ↔ guard' t e)) {s : σ} {t : τ} {es : List ε}
    (hok : ∀ e ∈ es, ok e) (h : rel s t) : Guarded step guard s es ↔ Guarded step' guard' t es := by
  induction es generalizing s t with
  | nil => exact Iff.rfl
  | cons e es ih =>
    have hrest := ih (fun e' he' => hok e' (List.mem_cons_of_mem _ he'))
      (hstep s t e (hok e List.mem_cons_self) h)
    exact and_congr (hguard s t e h) hrest

/-- Where the guard is exactly what a step needs in order to keep `inv`, a run keeps `inv` in all
    its states if and only if all its steps are guarded. The side condition `side` is one that
    every step on an event in `ok` keeps anyway. -/
theorem states_iff_guarded {side : σ → Prop} {ok : ε → Prop}
    (hside : ∀ s e, ok e → side s → side (step s e))
    (hstep : ∀ s e, ok e → side s → inv s → (inv (step s e) ↔ guard s e)) {s : σ}
    {es : List ε} (hok : ∀ e ∈ es, ok e) (hs : side s) (hinv : inv s) :
    (∀ t ∈ states step s es, inv t) ↔ Guarded step guard s es := by
  induction es generalizing s with
  | nil => simp [states, Guarded, hinv]
  | cons e es ih =>
    have hoke := hok e (List.mem_cons_self ..)
    have hrest := fun hinv' : inv (step s e) =>
      ih (fun e' he' => hok e' (List.mem_cons_of_mem _ he')) (hside s e hoke hs) hinv'
    constructor
    · intro h
      have hinv' : inv (step s e) :=
        h _ (List.mem_cons_of_mem _ (mem_states_self step (step s e) es))
      exact ⟨(hstep s e hoke hs hinv).1 hinv',
        (hrest hinv').1 fun t ht => h t (List.mem_cons_of_mem _ ht)⟩
    · rintro ⟨hg, hgs⟩ t ht
      rcases List.mem_cons.1 ht with rfl | ht
      · exact hinv
      · exact (hrest ((hstep s e hoke hs hinv).2 hg)).2 hgs t ht

end Transition
