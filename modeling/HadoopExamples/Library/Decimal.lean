import Mathlib.Algebra.Order.Ring.Int
import Mathlib.Algebra.Ring.Nat

set_option autoImplicit false

/-! # Decimal numbers

Zero-padded natural numbers and signed integers, and what can be read back from their digits. As
texts, numbers of one width are in the order of the numbers (`zeroPad_append_lt_iff`). -/

namespace Decimal

/-- The decimal digits of `n`, with leading zeros up to `width`. -/
def zeroPad (width n : ℕ) : List Char := (Nat.toDigits 10 n).leftpad width '0'

theorem zeroPad_injective (width : ℕ) : Function.Injective (zeroPad width) := by
  intro m n h
  have hvalue : ∀ k, Nat.ofDigitChars 10 (zeroPad width k) 0 = k := by
    intro k
    rw [zeroPad, List.leftpad, Nat.ofDigitChars_append, Nat.ofDigitChars_replicate_zero,
      Nat.mul_zero, Nat.ofDigitChars_ten_toDigits]
  rw [← hvalue m, h, hvalue n]

theorem isDigit_of_mem_zeroPad {width n : ℕ} {c : Char} (hc : c ∈ zeroPad width n) :
    c.isDigit = true := by
  rw [zeroPad, List.leftpad, List.mem_append] at hc
  rcases hc with hc | hc
  · rw [List.eq_of_mem_replicate hc]
    rfl
  · exact Nat.isDigit_of_mem_toDigits (by omega) (by omega) hc

theorem le_length_zeroPad (width n : ℕ) : width ≤ (zeroPad width n).length := by
  rw [zeroPad, List.length_leftpad]
  exact Nat.le_max_left _ _

theorem length_zeroPad {width n : ℕ} (hwidth : 0 < width) (hn : n < 10 ^ width) :
    (zeroPad width n).length = width := by
  have hdigits := (Nat.length_toDigits_le_iff (n := n) (by omega : 1 < 10) hwidth).2 hn
  rw [zeroPad, List.length_leftpad]
  omega

/-- A full-width number that starts a text followed by a non-digit is the number there. -/
theorem zeroPad_prefix_iff {width m n : ℕ} (hwidth : 0 < width) (hn : n < 10 ^ width) {c : Char}
    (hc : c.isDigit = false) (rest : List Char) :
    zeroPad width m <+: zeroPad width n ++ c :: rest ↔ m = n := by
  refine ⟨fun h => ?_, fun h => ?_⟩
  · have hlength : (zeroPad width n).length ≤ (zeroPad width m).length := by
      rw [length_zeroPad hwidth hn]
      exact le_length_zeroPad width m
    obtain ⟨more, hmore⟩ := List.prefix_of_prefix_length_le (List.prefix_append _ _) h hlength
    rw [← hmore, List.prefix_append_right_inj] at h
    cases more with
    | nil =>
      rw [List.append_nil] at hmore
      exact (zeroPad_injective width hmore).symm
    | cons c' more =>
      -- a longer number would go on with the non-digit
      have hc' : c' = c := (List.cons_prefix_cons.1 h).1
      have hdigit : c.isDigit = true :=
        isDigit_of_mem_zeroPad (n := m) (by rw [← hmore, ← hc']; simp)
      rw [hc] at hdigit
      cases hdigit
  · rw [h]
    exact List.prefix_append _ _

/-! ## The order of texts -/

/-- Of two texts that start with as many characters, the starts decide, unless they are equal. -/
theorem append_lt_append_iff {l l' : List Char} (h : l.length = l'.length) (r r' : List Char) :
    l ++ r < l' ++ r' ↔ l < l' ∨ (l = l' ∧ r < r') := by
  induction l generalizing l' with
  | nil =>
    rw [List.length_nil] at h
    rw [List.length_eq_zero_iff.1 h.symm]
    simp
  | cons c l ih =>
    cases l' with
    | nil => cases h
    | cons c' l' =>
      rw [List.cons_append, List.cons_append, List.cons_lt_cons_iff, List.cons_lt_cons_iff,
        ih (Nat.succ.inj h), List.cons.injEq]
      tauto

theorem digitChar_lt_iff {m n : ℕ} (hm : m < 10) (hn : n < 10) :
    m.digitChar < n.digitChar ↔ m < n := by
  have hlt : m.digitChar < n.digitChar ↔ m.digitChar.toNat < n.digitChar.toNat := Iff.rfl
  rw [hlt, Nat.toNat_digitChar_of_lt_ten hm, Nat.toNat_digitChar_of_lt_ten hn]
  omega

/-- The last digit of a number of two or more places. -/
theorem zeroPad_succ (width n : ℕ) :
    zeroPad (width + 2) n = zeroPad (width + 1) (n / 10) ++ [(n % 10).digitChar] := by
  unfold zeroPad List.leftpad
  rcases Nat.lt_or_ge n 10 with hn | hn
  · rw [Nat.toDigits_of_lt_base hn, Nat.div_eq_of_lt hn, Nat.mod_eq_of_lt hn, Nat.toDigits_zero]
    show List.replicate (width + 1) '0' ++ [_] = List.replicate width '0' ++ ['0'] ++ [_]
    rw [List.replicate_succ']
  · have hzeros (k : ℕ) : width + 2 - (k + 1) = width + 1 - k := by omega
    rw [Nat.toDigits_of_base_le (by omega) hn, List.length_append, List.length_singleton, hzeros,
      List.append_assoc]

/-- A number that does not fit is written in full. -/
theorem zeroPad_of_le {width n : ℕ} (hn : 10 ^ width ≤ n) :
    zeroPad width n = zeroPad (width + 1) n := by
  have hlength : width < (Nat.toDigits 10 n).length := by
    cases width with
    | zero => exact Nat.length_toDigits_pos
    | succ width =>
      by_contra hle
      have := (Nat.length_toDigits_le_iff (by omega : 1 < 10) width.succ_pos).1 (not_lt.1 hle)
      omega
  unfold zeroPad List.leftpad
  rw [Nat.sub_eq_zero_of_le hlength.le, Nat.sub_eq_zero_of_le hlength]

theorem zeroPad_lt_iff {width m n : ℕ} (hm : m < 10 ^ (width + 1)) (hn : n < 10 ^ (width + 1)) :
    zeroPad (width + 1) m < zeroPad (width + 1) n ↔ m < n := by
  induction width generalizing m n with
  | zero =>
    have hm : m < 10 := hm
    have hn : n < 10 := hn
    unfold zeroPad
    rw [Nat.toDigits_of_lt_base hm, Nat.toDigits_of_lt_base hn]
    show [_] < [_] ↔ _
    rw [List.cons_lt_cons_iff, digitChar_lt_iff hm hn]
    simp
  | succ width ih =>
    rw [Nat.pow_succ] at hm hn
    have hm : m / 10 < 10 ^ (width + 1) := by omega
    have hn : n / 10 < 10 ^ (width + 1) := by omega
    rw [zeroPad_succ, zeroPad_succ, append_lt_append_iff, ih hm hn,
      (zeroPad_injective _).eq_iff, List.cons_lt_cons_iff, digitChar_lt_iff (by omega) (by omega)]
    · simp only [List.lt_irrefl, and_false, or_false]
      omega
    · rw [length_zeroPad (by omega) hm, length_zeroPad (by omega) hn]

/-- Texts that start with numbers of full width are in the order of these numbers. -/
theorem zeroPad_append_lt_iff {width m n : ℕ} (hwidth : 0 < width) (hm : m < 10 ^ width)
    (hn : n < 10 ^ width) (r r' : List Char) :
    zeroPad width m ++ r < zeroPad width n ++ r' ↔ m < n ∨ (m = n ∧ r < r') := by
  have hlength : (zeroPad width m).length = (zeroPad width n).length := by
    rw [length_zeroPad hwidth hm, length_zeroPad hwidth hn]
  obtain ⟨width, rfl⟩ := Nat.exists_eq_succ_of_ne_zero hwidth.ne'
  rw [append_lt_append_iff hlength, zeroPad_lt_iff hm hn, (zeroPad_injective _).eq_iff]

/-! ## Signed numbers -/

/-- The decimal text of an integer, with a minus sign before a negative one. -/
def ofInt (z : ℤ) : List Char :=
  if z < 0 then '-' :: zeroPad 1 z.natAbs else zeroPad 1 z.natAbs

theorem minus_not_mem_zeroPad (width n : ℕ) : '-' ∉ zeroPad width n := by
  intro h
  exact absurd (isDigit_of_mem_zeroPad h) (by decide)

theorem ofInt_injective : Function.Injective ofInt := by
  intro y z h
  have hmixed : ∀ m n, '-' :: zeroPad 1 m ≠ zeroPad 1 n := by
    intro m n heq
    exact minus_not_mem_zeroPad 1 n (heq ▸ List.mem_cons_self ..)
  unfold ofInt at h
  split_ifs at h with hy hz hz
  · have := zeroPad_injective 1 (List.cons.inj h).2
    omega
  · exact absurd h (hmixed _ _)
  · exact absurd h.symm (hmixed _ _)
  · have := zeroPad_injective 1 h
    omega

end Decimal
