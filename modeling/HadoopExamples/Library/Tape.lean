import HadoopExamples.Library.Hoare

set_option autoImplicit false

/-! # Writing, and reading what is written at a place

A writer is an `EStateM` on what is written so far. `Appends p Q` says that `p`, if it returns, has
written a part with `Q` behind it; `Writes p part` that it returns and has written `part`.

A `Tape` is a sequence with a position in it, such as an open file; a program on it is an `EStateM`.
`Answers p part r` says that `p`, started at the front of `part`, whatever is before and after it,
comes to the result `r`; and where this is a value, `p` has read `part` and nothing else. So `part`
needs no mark for its end, and the rules for `Answers` put the parts one behind the other as the
program has its steps. -/

section Writing

variable {β ε α γ ι : Type} {p q : EStateM ε (List β) Unit} {P Q : List β → Prop}

def Appends (p : EStateM ε (List β) Unit) (Q : List β → Prop) : Prop :=
  ∀ l l', p l = .ok () l' → ∃ part, Q part ∧ l' = l ++ part

theorem Appends.weaken (h : Appends p P) (hPQ : ∀ part, P part → Q part) : Appends p Q := by
  intro l l' hrun
  obtain ⟨part, hpart, heq⟩ := h l l' hrun
  exact ⟨part, hPQ part hpart, heq⟩

theorem Appends.append (part : List β) :
    Appends (modify (· ++ part) : EStateM ε (List β) Unit) (· = part) := by
  intro l l' hrun
  exact ⟨part, rfl, (EStateM.Result.ok.inj hrun).2.symm⟩

theorem Appends.nothing : Appends (pure () : EStateM ε (List β) Unit) (· = []) := by
  intro l l' hrun
  refine ⟨[], rfl, ?_⟩
  rw [List.append_nil]
  exact (EStateM.Result.ok.inj hrun).2.symm

theorem Appends.throw (e : ε) : Appends (throw e : EStateM ε (List β) Unit) Q := nofun

theorem Appends.seq (hp : Appends p P) (hq : Appends q Q) :
    Appends (do p; q) fun part => ∃ a b, P a ∧ Q b ∧ part = a ++ b := by
  intro l l' hrun
  obtain ⟨⟨⟩, m, hfirst, hsecond⟩ := Hoare.ok_of_bind hrun
  obtain ⟨a, ha, rfl⟩ := hp l m hfirst
  obtain ⟨b, hb, rfl⟩ := hq (l ++ a) l' hsecond
  exact ⟨a ++ b, ⟨a, b, ha, hb, rfl⟩, List.append_assoc l a b⟩

theorem Appends.ofExcept {e : Except ε α} {next : α → EStateM ε (List β) Unit}
    (h : ∀ a, e = .ok a → Appends (next a) Q) : Appends (do next (← ofExcept e)) Q := by
  intro l l' hrun
  obtain ⟨a, m, hfirst, hsecond⟩ := Hoare.ok_of_bind hrun
  cases e with
  | error e => cases hfirst
  | ok a' =>
    obtain ⟨rfl, rfl⟩ := EStateM.Result.ok.inj hfirst
    exact h a' rfl l l' hsecond

/-- A loop that writes for each element the bytes of something that the element stands for. -/
theorem Appends.forM {items : List ι} {f : ι → EStateM ε (List β) Unit} {R : ι → γ → Prop}
    {bytes : γ → List β}
    (h : ∀ i ∈ items, Appends (f i) fun part => ∃ c, R i c ∧ part = bytes c) :
    Appends (items.forM f) fun part => ∃ parts : List (ι × γ), parts.map Prod.fst = items ∧
      (∀ p ∈ parts, R p.1 p.2) ∧ part = (parts.map Prod.snd).flatMap bytes := by
  induction items with
  | nil =>
    refine Appends.nothing.weaken fun part hpart => ⟨[], rfl, nofun, ?_⟩
    rw [hpart]
    rfl
  | cons i items ih =>
    have hrest := ih fun i' h' => h i' (List.mem_cons_of_mem _ h')
    refine (Appends.seq (h i List.mem_cons_self) hrest).weaken ?_
    rintro _ ⟨_, _, ⟨c, hc, rfl⟩, ⟨parts, rfl, hparts, rfl⟩, rfl⟩
    exact ⟨(i, c) :: parts, rfl, List.forall_mem_cons.2 ⟨hc, hparts⟩, rfl⟩

/-- The program returns, and has written this part. -/
def Writes (p : EStateM ε (List β) Unit) (part : List β) : Prop := ∀ l, p l = .ok () (l ++ part)

theorem Writes.append (part : List β) :
    Writes (modify (· ++ part) : EStateM ε (List β) Unit) part := fun _ => rfl

theorem Writes.nothing : Writes (pure () : EStateM ε (List β) Unit) [] := by
  intro l
  rw [List.append_nil]
  rfl

theorem Writes.seq {part part' : List β} (hp : Writes p part) (hq : Writes q part') :
    Writes (do p; q) (part ++ part') := by
  intro l
  show EStateM.bind p (fun _ => q) l = _
  unfold EStateM.bind
  rw [hp l]
  show q (l ++ part) = _
  rw [hq, List.append_assoc]

theorem Writes.ofExcept {e : Except ε α} {a : α} {next : α → EStateM ε (List β) Unit}
    {part : List β} (ha : e = .ok a) (h : Writes (next a) part) :
    Writes (do next (← ofExcept e)) part := by
  subst ha
  exact h

theorem Writes.forM {items : List ι} {f : ι → EStateM ε (List β) Unit} {bytes : ι → List β}
    (h : ∀ i ∈ items, Writes (f i) (bytes i)) : Writes (items.forM f) (items.flatMap bytes) := by
  induction items with
  | nil => exact Writes.nothing
  | cons i items ih =>
    exact Writes.seq (h i List.mem_cons_self) (ih fun i' h' => h i' (List.mem_cons_of_mem _ h'))

end Writing

structure Tape (β : Type) where
  content : List β
  position : ℕ

namespace Tape

variable {β ε α γ ι : Type}

/-- What is ahead of the position. -/
def rest (t : Tape β) : List β := t.content.drop t.position

/-- The next `n` elements, or as many as there are. -/
def read (n : ℕ) : EStateM ε (Tape β) (List β) := fun t =>
  .ok (t.rest.take n) { t with position := t.position + (t.rest.take n).length }

def tell : EStateM ε (Tape β) ℕ := fun t => .ok t.position t

def seek (position : ℕ) : EStateM ε (Tape β) Unit := fun t => .ok () { t with position }

/-- The position in `whole` before `part`. -/
abbrev before (front part back : List β) : Tape β := ⟨front ++ part ++ back, front.length⟩

/-- The position behind `part`. -/
abbrev behind (front part back : List β) : Tape β := ⟨front ++ part ++ back, (front ++ part).length⟩

def Answers (p : EStateM ε (Tape β) α) (part : List β) : Except ε α → Prop
  | .ok a => ∀ front back, p (before front part back) = .ok a (behind front part back)
  | .error e => ∀ front back, ∃ t, p (before front part back) = .error e t

theorem rest_before (front part back : List β) : (before front part back).rest = part ++ back := by
  unfold rest before
  rw [List.append_assoc, List.drop_left]

theorem before_append (front part part' back : List β) :
    before front (part ++ part') back = before front part (part' ++ back) := by
  unfold before
  rw [List.append_assoc, List.append_assoc, List.append_assoc]

theorem behind_append (front part part' back : List β) :
    behind front (part ++ part') back = behind (front ++ part) part' back := by
  unfold behind
  rw [← List.append_assoc]

theorem behind_eq_before (front part part' back : List β) :
    behind front part (part' ++ back) = before (front ++ part) part' back := by
  unfold behind before
  rw [← List.append_assoc]

variable {p : EStateM ε (Tape β) α} {next : α → EStateM ε (Tape β) γ} {part part' : List β}
  {r : Except ε α}

theorem Answers.run {a : α} (h : Answers p part (.ok a)) (front part' back : List β) :
    p (before front (part ++ part') back) = .ok a (before (front ++ part) part' back) := by
  rw [before_append, h front (part' ++ back), behind_eq_before]

theorem Answers.pure (a : α) : Answers (pure a : EStateM ε (Tape β) α) [] (.ok a) := by
  intro front back
  show EStateM.Result.ok a (before front [] back) = _
  unfold before behind
  rw [List.append_nil]

theorem Answers.throw (e : ε) (part : List β) :
    Answers (throw e : EStateM ε (Tape β) α) part (.error e) :=
  fun front back => ⟨before front part back, rfl⟩

theorem Answers.ofExcept (e : Except ε α) :
    Answers (ofExcept e : EStateM ε (Tape β) α) [] e := by
  cases e with
  | error e => exact Answers.throw e []
  | ok a => exact Answers.pure a

theorem Answers.bind {f : α → Except ε γ} (hp : Answers p part r)
    (hnext : ∀ a, r = .ok a → Answers (next a) part' (f a)) :
    Answers (p >>= next) (part ++ part') (r >>= f) := by
  cases r with
  | error e =>
    intro front back
    obtain ⟨t, ht⟩ := hp front (part' ++ back)
    rw [← before_append] at ht
    exact ⟨t, Hoare.bind_of_error ht⟩
  | ok a =>
    have hrest := hnext a rfl
    have hrun : ∀ front back, (p >>= next) (before front (part ++ part') back)
        = next a (before (front ++ part) part' back) := by
      intro front back
      exact Hoare.bind_of_ok (hp.run front part' back)
    show Answers (p >>= next) (part ++ part') (f a)
    cases hfa : f a with
    | error e =>
      intro front back
      rw [hfa] at hrest
      obtain ⟨t, ht⟩ := hrest (front ++ part) back
      exact ⟨t, (hrun front back).trans ht⟩
    | ok c =>
      intro front back
      rw [hfa] at hrest
      rw [hrun, hrest (front ++ part) back, behind_append]

/-- The second step for a first one that succeeds. -/
theorem Answers.andThen {a : α} {r' : Except ε γ} (hp : Answers p part (.ok a))
    (hnext : Answers (next a) part' r') : Answers (p >>= next) (part ++ part') r' :=
  Answers.bind (f := fun _ => r') hp fun a' ha' => by cases ha'; exact hnext

/-- The steps behind a result that there is. -/
theorem Answers.okThen {e : Except ε α} {a : α} {r' : Except ε γ} (h : e = .ok a)
    (hnext : Answers (next a) part r') : Answers (do next (← MonadExcept.ofExcept e)) part r' := by
  subst h
  exact hnext

/-- A last step that only computes. -/
theorem Answers.map {g : α → γ} (hp : Answers p part r) :
    Answers (do let a ← p; Pure.pure (g a)) part (do let a ← r; Pure.pure (g a)) := by
  have h := Answers.bind (f := fun a => Pure.pure (g a)) hp fun a _ =>
    Answers.pure (ε := ε) (g a)
  rwa [List.append_nil] at h

theorem answers_read (part : List β) :
    Answers (read part.length : EStateM ε (Tape β) (List β)) part (.ok part) := by
  intro front back
  unfold read
  rw [rest_before, List.take_left]
  unfold before behind
  rw [List.length_append]

theorem answers_skip (part : List β) :
    Answers (do let n ← tell; seek (n + part.length) : EStateM ε (Tape β) Unit) part (.ok ()) := by
  intro front back
  unfold behind
  rw [List.length_append]
  rfl

/-! ## Loops -/

section Loops

variable {σ : Type} {step : σ → EStateM ε (Tape β) σ} {items : List ι} {bytes : ι → List β}
  {f : σ → ι → Except ε σ}

/-- `n` steps, one after the other. -/
def repeatM (step : σ → EStateM ε (Tape β) σ) : ℕ → σ → EStateM ε (Tape β) σ
  | 0, s => pure s
  | n + 1, s => do repeatM step n (← step s)

theorem Answers.repeatM
    (hstep : ∀ item ∈ items, ∀ s, Answers (step s) (bytes item) (f s item)) (s : σ) :
    Answers (Tape.repeatM step items.length s) (items.flatMap bytes) (items.foldlM f s) := by
  induction items generalizing s with
  | nil => exact Answers.pure s
  | cons item items ih =>
    rw [List.length_cons, Tape.repeatM, List.flatMap_cons, List.foldlM_cons]
    refine Answers.bind (hstep item List.mem_cons_self s) fun s' _ => ?_
    exact ih (fun item' h => hstep item' (List.mem_cons_of_mem _ h)) s'

/-- A loop over a list, which reads one part for each element. -/
theorem Answers.foldlM {step : σ → ι → EStateM ε (Tape β) σ}
    (hstep : ∀ item ∈ items, ∀ s, Answers (step s item) (bytes item) (f s item)) (s : σ) :
    Answers (items.foldlM step s) (items.flatMap bytes) (items.foldlM f s) := by
  induction items generalizing s with
  | nil => exact Answers.pure s
  | cons item items ih =>
    rw [List.foldlM_cons, List.flatMap_cons, List.foldlM_cons]
    refine Answers.bind (hstep item List.mem_cons_self s) fun s' _ => ?_
    exact ih (fun item' h => hstep item' (List.mem_cons_of_mem _ h)) s'

theorem Answers.forM {step : ι → EStateM ε (Tape β) Unit}
    (hstep : ∀ item ∈ items, Answers (step item) (bytes item) (.ok ())) :
    Answers (items.forM step) (items.flatMap bytes) (.ok ()) := by
  induction items with
  | nil => exact Answers.pure ()
  | cons item items ih =>
    exact Answers.andThen (hstep item List.mem_cons_self)
      (ih fun item' h => hstep item' (List.mem_cons_of_mem _ h))

end Loops

/-! ## No mark for the end -/

/-- Of two parts that a program reads, none is the front of the other. -/
theorem Answers.prefix_free {a a' : α} {back back' : List β} (h : Answers p part (.ok a))
    (h' : Answers p part' (.ok a')) (heq : part ++ back = part' ++ back') :
    part = part' ∧ a = a' := by
  have hrun := h [] back
  have hsame : before [] part back = before [] part' back' := congrArg (Tape.mk · 0) heq
  rw [hsame, h' [] back'] at hrun
  obtain ⟨ha, ht⟩ := EStateM.Result.ok.inj hrun
  have hlength : part'.length = part.length := congrArg Tape.position ht
  exact ⟨(List.append_inj_left heq hlength.symm), ha.symm⟩

end Tape
