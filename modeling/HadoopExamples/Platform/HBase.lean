import HadoopExamples.Library.KeyedStore
import HadoopExamples.Platform.Java

set_option autoImplicit false

/-! # What the sources use of the HBase client

Row keys, columns and values are byte strings, and a table holds one row for each row key. A put
writes some cells of one row: it makes the row if there is none, and overwrites or adds cells if
there is one. -/

namespace HadoopExamples

abbrev Bytes := List UInt8

namespace Bytes

/-- `Bytes.toBytes` of a string. -/
def ofString (s : JavaString) : Bytes := s.flatMap String.utf8EncodeChar

/-- `Bytes.toBytes` of an `int`: four bytes, the highest first. -/
def ofInt (i : JavaInt) : Bytes :=
  [⟨i.extractLsb' 24 8⟩, ⟨i.extractLsb' 16 8⟩, ⟨i.extractLsb' 8 8⟩, ⟨i.extractLsb' 0 8⟩]

theorem ofString_injective : Function.Injective ofString := by
  intro s s' h
  have htext : (⟨s⟩ : Text).bytes = (⟨s'⟩ : Text).bytes := congrArg (List.map UInt8.toNat) h
  exact Text.mk.inj (Text.bytes_injective htext)

theorem ofString_cons {c : Char} (hc : c.toNat < 128) (s : JavaString) :
    ofString (c :: s) = UInt8.ofNat c.toNat :: ofString s := by
  have hsize : c.utf8Size = 1 := Char.utf8Size_eq_one_iff.2 (UInt32.le_iff_toNat_le.2 (by
    show c.toNat ≤ 127
    omega))
  unfold ofString
  rw [List.flatMap_cons, String.utf8EncodeChar_eq_singleton hsize]
  rfl

/-- ASCII strings and their bytes are in the same order. -/
theorem ofString_lt_iff {s s' : JavaString} (hs : ∀ c ∈ s, c.toNat < 128)
    (hs' : ∀ c ∈ s', c.toNat < 128) : ofString s < ofString s' ↔ s < s' := by
  induction s generalizing s' with
  | nil =>
    cases s' with
    | nil => exact iff_of_false (List.lt_irrefl _) (List.lt_irrefl _)
    | cons c' s' =>
      rw [ofString_cons (hs' c' List.mem_cons_self)]
      exact iff_of_true List.Lex.nil List.Lex.nil
  | cons c s ih =>
    have hc := hs c List.mem_cons_self
    cases s' with
    | nil => exact iff_of_false (List.not_lt_nil _) (List.not_lt_nil _)
    | cons c' s' =>
      have hc' := hs' c' List.mem_cons_self
      have hbyte : ∀ {d : Char}, d.toNat < 128 → (UInt8.ofNat d.toNat).toNat = d.toNat := by
        intro d hd
        exact UInt8.toNat_ofNat_of_lt' (hd.trans (by decide))
      have hlt : UInt8.ofNat c.toNat < UInt8.ofNat c'.toNat ↔ c < c' := by
        rw [UInt8.lt_iff_toNat_lt, hbyte hc, hbyte hc']
        exact Iff.rfl
      have heq : UInt8.ofNat c.toNat = UInt8.ofNat c'.toNat ↔ c = c' := by
        rw [← UInt8.toNat_inj, hbyte hc, hbyte hc', Char.toNat_inj]
      rw [ofString_cons hc, ofString_cons hc', List.cons_lt_cons_iff, List.cons_lt_cons_iff, hlt,
        heq, ih (fun d hd => hs d (List.mem_cons_of_mem _ hd))
          (fun d hd => hs' d (List.mem_cons_of_mem _ hd))]

theorem ofInt_injective : Function.Injective ofInt := by
  intro i j h
  simp only [ofInt, List.cons.injEq, UInt8.ofBitVec.injEq, and_true] at h
  obtain ⟨h₃, h₂, h₁, h₀⟩ := h
  have hbyte : ∀ start, i.extractLsb' start 8 = j.extractLsb' start 8 →
      i.toNat / 2 ^ start % 256 = j.toNat / 2 ^ start % 256 := by
    intro start heq
    have := congrArg BitVec.toNat heq
    rwa [BitVec.extractLsb'_toNat, BitVec.extractLsb'_toNat, Nat.shiftRight_eq_div_pow,
      Nat.shiftRight_eq_div_pow] at this
  have h₃ := hbyte 24 h₃
  have h₂ := hbyte 16 h₂
  have h₁ := hbyte 8 h₁
  have h₀ := hbyte 0 h₀
  have hi := i.isLt
  have hj := j.isLt
  refine BitVec.eq_of_toNat_eq ?_
  omega

end Bytes

structure Column where
  family : Bytes
  qualifier : Bytes
deriving DecidableEq

structure Put where
  row : Bytes
  cells : List (Column × Bytes)

/-- The cells of one row. -/
abbrev HRow := KeyedStore Column Bytes

abbrev HTable := KeyedStore Bytes HRow

/-- The row after a put, from the row that is there. -/
def Put.applyTo (p : Put) (row : Option HRow) : HRow :=
  Transition.run (KeyedStore.step Prod.fst fun cell _ => cell.2) (row.getD KeyedStore.empty) p.cells

namespace HTable

def put (t : HTable) (p : Put) : HTable := KeyedStore.step Put.row Put.applyTo t p

/-- The table that puts make of an empty one, in their order. -/
def putAll (puts : List Put) : HTable := Transition.run put KeyedStore.empty puts

/-- Every put makes a row of its own. -/
def CreatesRows (puts : List Put) : Prop := KeyedStore.Fresh Put.row Put.applyTo puts

theorem length_keys_putAll (puts : List Put) :
    (putAll puts).keys.length = (puts.map Put.row).dedup.length :=
  KeyedStore.length_keys_run Put.row Put.applyTo puts

theorem createsRows_iff (puts : List Put) : CreatesRows puts ↔ (puts.map Put.row).Nodup :=
  KeyedStore.fresh_iff Put.row Put.applyTo puts

/-- Every put makes a row of its own behind all rows that are there. -/
def AppendsRows (puts : List Put) : Prop :=
  Transition.Guarded put (fun t p => ∀ k ∈ t.keys, k < p.row) KeyedStore.empty puts

theorem appendsRows_iff (puts : List Put) :
    AppendsRows puts ↔ (puts.map Put.row).Pairwise (· < ·) := by
  refine (KeyedStore.guarded_keys_iff Put.row Put.applyTo (· < ·) KeyedStore.empty puts).trans ?_
  simp

theorem length_keys_putAll_eq_iff (puts : List Put) :
    (putAll puts).keys.length = puts.length ↔ CreatesRows puts :=
  KeyedStore.length_keys_run_eq_iff Put.row Put.applyTo puts

/-! ## The rows of a column family -/

/-- The keys of the rows with a cell in the family. -/
def keysOf (family : Bytes) (t : HTable) : List Bytes :=
  (t.entries.filter fun entry => entry.2.keys.any (·.family = family)).map Prod.fst

end HTable

/-- The put writes a cell in the family. -/
def Put.writes (family : Bytes) (p : Put) : Bool := p.cells.any (·.1.family = family)

namespace HTable

variable {family : Bytes}

theorem mem_keysOf {t : HTable} {k : Bytes} :
    k ∈ keysOf family t ↔ ∃ row, t.find? k = some row ∧ ∃ c ∈ row.keys, c.family = family := by
  simp only [keysOf, List.mem_map, List.mem_filter, List.any_eq_true, decide_eq_true_eq,
    Prod.exists, exists_and_right, exists_eq_right, KeyedStore.mem_entries_iff]

theorem mem_keys_applyTo {p : Put} {row : Option HRow} {c : Column} :
    c ∈ (p.applyTo row).keys ↔ (∃ r, row = some r ∧ c ∈ r.keys) ∨ c ∈ p.cells.map Prod.fst := by
  unfold Put.applyTo
  rw [KeyedStore.mem_keys_run]
  cases row <;> simp

theorem mem_keysOf_put {t : HTable} {p : Put} {k : Bytes} :
    k ∈ keysOf family (t.put p) ↔
      k ∈ keysOf family t ∨ (p.row = k ∧ p.writes family = true) := by
  have hwrites : p.writes family = true ↔ ∃ c ∈ p.cells.map Prod.fst, c.family = family := by
    simp [Put.writes]
  rw [mem_keysOf, mem_keysOf, hwrites]
  simp only [put, KeyedStore.step, KeyedStore.find?_update]
  by_cases hk : k = p.row
  · rw [if_pos hk, ← hk]
    simp only [Option.some.injEq, exists_eq_left', mem_keys_applyTo, true_and]
    constructor
    · rintro ⟨c, ⟨r, hr, hc⟩ | hc, hfamily⟩
      · exact Or.inl ⟨r, hr, c, hc, hfamily⟩
      · exact Or.inr ⟨c, hc, hfamily⟩
    · rintro (⟨r, hr, c, hc, hfamily⟩ | ⟨c, hc, hfamily⟩)
      · exact ⟨c, Or.inl ⟨r, hr, hc⟩, hfamily⟩
      · exact ⟨c, Or.inr hc, hfamily⟩
  · rw [if_neg hk]
    simp [Ne.symm hk]

theorem mem_keysOf_putAll {puts : List Put} {k : Bytes} :
    k ∈ keysOf family (putAll puts) ↔ k ∈ (puts.filter (Put.writes family)).map Put.row := by
  have hrun : ∀ t : HTable, k ∈ keysOf family (Transition.run put t puts) ↔
      k ∈ keysOf family t ∨ k ∈ (puts.filter (Put.writes family)).map Put.row := by
    induction puts with
    | nil => simp
    | cons p puts ih =>
      intro t
      rw [Transition.run_cons, ih, mem_keysOf_put, or_assoc, List.filter_cons]
      by_cases hwrites : p.writes family = true
      · simp [hwrites, @eq_comm _ k]
      · simp [hwrites]
  unfold putAll
  rw [hrun]
  simp [keysOf, KeyedStore.empty]

theorem nodup_keysOf (family : Bytes) (t : HTable) : (keysOf family t).Nodup :=
  t.nodup.sublist (List.filter_sublist.map _)

/-- A family has one row for each different row key of the puts that write it. -/
theorem length_keysOf_putAll (family : Bytes) (puts : List Put) :
    (keysOf family (putAll puts)).length
      = ((puts.filter (Put.writes family)).map Put.row).dedup.length := by
  refine List.Perm.length_eq
    ((List.perm_ext_iff_of_nodup (nodup_keysOf _ _) (List.nodup_dedup _)).2 ?_)
  intro k
  rw [mem_keysOf_putAll, List.mem_dedup]

end HTable

end HadoopExamples
