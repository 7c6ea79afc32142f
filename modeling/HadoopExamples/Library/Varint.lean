import Mathlib.Data.Int.Bitwise
import Mathlib.Data.List.Basic
import Mathlib.Tactic.Linarith
import Mathlib.Tactic.Positivity

set_option autoImplicit false

/-! # Numbers as bytes

Integers of variable length, as bytes of seven bits each, the lowest first, where all bytes but the
last have their high bit set; and the zig-zag code, which takes integers of small absolute value to
small natural numbers, so that they become few bytes. Behind them, numbers of fixed length.

`decode_encode` and `unzigzag_zigzag_iff` read back what was written. The code is for integers of
`w + 1` bits and cannot be read back outside them, however many bits the arithmetic has. -/

namespace Varint

/-! ## The zig-zag code -/

def zigzag (w : ℕ) (n : ℤ) : ℤ := Int.xor (n <<< (1 : ℕ)) (n >>> w)

def unzigzag (m : ℕ) : ℤ := Int.xor (m >>> 1 : ℕ) (-(m &&& 1 : ℕ))

theorem xor_zero (n : ℤ) : Int.xor n 0 = n := by
  cases n with
  | ofNat n => exact congrArg Int.ofNat (Nat.xor_zero n)
  | negSucc n => exact congrArg Int.negSucc (Nat.xor_zero n)

theorem xor_neg_one (n : ℤ) : Int.xor n (-1) = -n - 1 := by
  cases n with
  | ofNat n =>
    show Int.negSucc (n ^^^ 0) = -Int.ofNat n - 1
    rw [Nat.xor_zero, Int.negSucc_eq, Int.ofNat_eq_natCast]
    omega
  | negSucc n =>
    show ((n ^^^ 0 : ℕ) : ℤ) = -Int.negSucc n - 1
    rw [Nat.xor_zero, Int.negSucc_eq]
    omega

theorem unzigzag_eq (m : ℕ) :
    unzigzag m = if m % 2 = 0 then ((m / 2 : ℕ) : ℤ) else -((m / 2 : ℕ) : ℤ) - 1 := by
  unfold unzigzag
  rw [Nat.and_one_is_mod, Nat.shiftRight_one]
  rcases Nat.mod_two_eq_zero_or_one m with h | h
  · rw [if_pos h, h, Nat.cast_zero, neg_zero, xor_zero]
  · rw [if_neg (by omega), h, Nat.cast_one, xor_neg_one]

theorem shiftRight_bounds (w : ℕ) (n : ℤ) :
    2 ^ w * (n >>> w) ≤ n ∧ n < 2 ^ w * (n >>> w) + 2 ^ w := by
  have hpos : (0 : ℤ) < 2 ^ w := by positivity
  rw [Int.shiftRight_eq_div_pow, Nat.cast_pow, Nat.cast_two]
  exact ⟨Int.mul_ediv_self_le hpos.ne', Int.lt_mul_ediv_self_add hpos⟩

theorem shiftRight_eq_zero_iff (w : ℕ) (n : ℤ) : n >>> w = 0 ↔ 0 ≤ n ∧ n < 2 ^ w := by
  obtain ⟨hle, hlt⟩ := shiftRight_bounds w n
  constructor
  · intro h
    rw [h] at hle hlt
    omega
  · intro h
    rw [Int.shiftRight_eq_div_pow, Nat.cast_pow, Nat.cast_two]
    exact Int.ediv_eq_zero_of_lt h.1 h.2

theorem shiftRight_eq_neg_one_iff (w : ℕ) (n : ℤ) : n >>> w = -1 ↔ -2 ^ w ≤ n ∧ n < 0 := by
  obtain ⟨hle, hlt⟩ := shiftRight_bounds w n
  constructor
  · intro h
    rw [h] at hle hlt
    omega
  · intro h
    rcases Int.lt_trichotomy (n >>> w) (-1) with hless | heq | hmore
    · nlinarith
    · exact heq
    · nlinarith

theorem zigzag_natCast {w n : ℕ} (h : n < 2 ^ w) : zigzag w n = (2 * n : ℕ) := by
  have hhigh : (n : ℤ) >>> w = 0 :=
    (shiftRight_eq_zero_iff w n).2 ⟨Int.natCast_nonneg n, by exact_mod_cast h⟩
  unfold zigzag
  rw [hhigh, xor_zero, Int.shiftLeft_eq]
  omega

/-- The code can be read back exactly for the integers of `w + 1` bits. -/
theorem unzigzag_zigzag_iff (w : ℕ) (n : ℤ) :
    unzigzag (zigzag w n).toNat = n ↔ -2 ^ w ≤ n ∧ n < 2 ^ w := by
  have hsmall : -2 ^ w ≤ n ∧ n < 2 ^ w ↔ n >>> w = 0 ∨ n >>> w = -1 := by
    rw [shiftRight_eq_zero_iff, shiftRight_eq_neg_one_iff]
    omega
  rw [hsmall]
  unfold zigzag
  rw [Int.shiftLeft_eq, pow_one]
  constructor
  · intro h
    rw [unzigzag_eq] at h
    cases n with
    | ofNat n =>
      have hcode : Int.xor (Int.ofNat n * 2) (Int.ofNat n >>> w) = ((2 * n) ^^^ (n >>> w) : ℕ) := by
        rw [Int.shiftRight_eq, Int.ofNat_eq_natCast, mul_comm, ← Nat.cast_two, ← Nat.cast_mul]
        rfl
      rw [hcode, Int.toNat_natCast] at h
      have heven : (2 * n) ^^^ (n >>> w) = 2 * n ^^^ 0 := by
        rw [Nat.xor_zero]
        split at h <;> rw [Int.ofNat_eq_natCast] at h <;> omega
      left
      rw [Int.shiftRight_eq]
      exact congrArg Int.ofNat (Nat.xor_right_inj.1 heven)
    | negSucc n =>
      have hdouble : Int.negSucc n * 2 = Int.negSucc (2 * n + 1) := by omega
      have hcode : Int.xor (Int.negSucc n * 2) (Int.negSucc n >>> w)
          = ((2 * n + 1) ^^^ (n >>> w) : ℕ) := by
        rw [hdouble, Int.shiftRight_eq]
        rfl
      rw [hcode, Int.toNat_natCast] at h
      have hodd : (2 * n + 1) ^^^ (n >>> w) = (2 * n + 1) ^^^ 0 := by
        rw [Nat.xor_zero]
        split at h <;> rw [Int.negSucc_eq] at h <;> omega
      right
      rw [Int.shiftRight_eq]
      exact congrArg Int.negSucc (Nat.xor_right_inj.1 hodd)
  · rintro (h | h)
    · have hn := (shiftRight_eq_zero_iff w n).1 h
      rw [h, xor_zero, unzigzag_eq]
      omega
    · have hn := (shiftRight_eq_neg_one_iff w n).1 h
      rw [h, xor_neg_one, unzigzag_eq]
      omega

/-! ## Base 128 -/

def encode (n : ℕ) : List UInt8 :=
  if n < 128 then [n.toUInt8] else (n % 128 + 128).toUInt8 :: encode (n / 128)
termination_by n
decreasing_by omega

/-- The number at the front of the bytes, and the bytes behind it; `n` has the bits of the number
    below the bit `shift`. -/
def decodeFrom (n shift : ℕ) : List UInt8 → Option (ℕ × List UInt8)
  | [] => none
  | b :: bytes =>
    if b.toNat &&& 0x80 ≠ 0 then decodeFrom (n ||| (b.toNat &&& 0x7F) <<< shift) (shift + 7) bytes
    else some (n ||| (b.toNat &&& 0x7F) <<< shift, bytes)

def decode (bytes : List UInt8) : Option (ℕ × List UInt8) := decodeFrom 0 0 bytes

/-- The bytes behind the number at the front. -/
def skip : List UInt8 → Option (List UInt8)
  | [] => none
  | b :: bytes => if b.toNat &&& 0x80 ≠ 0 then skip bytes else some bytes

theorem encode_ne_nil (n : ℕ) : encode n ≠ [] := by
  rw [encode]
  split <;> exact List.cons_ne_nil _ _

theorem length_encode_le (n : ℕ) : (encode n).length ≤ n + 1 := by
  induction n using Nat.strong_induction_on with
  | _ n ih =>
    rw [encode]
    split
    · rw [List.length_singleton]
      omega
    · have hrest := ih (n / 128) (by omega)
      rw [List.length_cons]
      omega

theorem high_bit_iff {n : ℕ} (hn : n < 256) : n &&& 0x80 ≠ 0 ↔ 128 ≤ n := by
  have hall : ∀ n : Fin 256, n.val &&& 0x80 ≠ 0 ↔ 128 ≤ n.val := by decide +kernel
  exact hall ⟨n, hn⟩

theorem low_bits (n : ℕ) : n &&& 0x7F = n % 128 := Nat.and_two_pow_sub_one_eq_mod n 7

theorem or_shiftLeft {n shift : ℕ} (hn : n < 2 ^ shift) (m : ℕ) :
    n ||| m <<< shift = n + m * 2 ^ shift := by
  rw [Nat.or_comm, Nat.shiftLeft_eq, Nat.mul_comm, ← Nat.two_pow_add_eq_or_of_lt hn, Nat.add_comm]

theorem decodeFrom_encode (m : ℕ) {n shift : ℕ} (hn : n < 2 ^ shift) (bytes : List UInt8) :
    decodeFrom n shift (encode m ++ bytes) = some (n + m * 2 ^ shift, bytes) := by
  induction m using Nat.strong_induction_on generalizing n shift with
  | _ m ih =>
    rw [encode]
    by_cases hm : m < 128
    · have hbyte : m.toUInt8.toNat = m := by
        rw [Nat.toUInt8_eq, UInt8.toNat_ofNat']
        omega
      have hlast : ¬ m &&& 0x80 ≠ 0 := fun h => hm.not_ge ((high_bit_iff (by omega)).1 h)
      rw [if_pos hm, List.singleton_append, decodeFrom, hbyte, if_neg hlast, low_bits,
        or_shiftLeft hn, Nat.mod_eq_of_lt hm]
    · have hbyte : (m % 128 + 128).toUInt8.toNat = m % 128 + 128 := by
        rw [Nat.toUInt8_eq, UInt8.toNat_ofNat']
        omega
      have hlow : (m % 128 + 128) % 128 = m % 128 := by omega
      have hnext : n + m % 128 * 2 ^ shift < 2 ^ (shift + 7) := by
        rw [Nat.pow_add]
        have hdigit : m % 128 ≤ 127 := by omega
        nlinarith
      have hmore : m % 128 + 128 &&& 0x80 ≠ 0 := (high_bit_iff (by omega)).2 (by omega)
      rw [if_neg hm, List.cons_append, decodeFrom, hbyte, if_pos hmore, low_bits, hlow,
        or_shiftLeft hn, ih (m / 128) (by omega) hnext]
      have hdigits : m % 128 + 128 * (m / 128) = m := Nat.mod_add_div m 128
      have hvalue : n + m % 128 * 2 ^ shift + m / 128 * 2 ^ (shift + 7) = n + m * 2 ^ shift := by
        rw [Nat.pow_add]
        nlinarith
      rw [hvalue]

theorem decode_encode (m : ℕ) (bytes : List UInt8) : decode (encode m ++ bytes) = some (m, bytes) := by
  rw [decode, decodeFrom_encode m Nat.one_pos, Nat.zero_add, Nat.pow_zero, Nat.mul_one]

/-- Whatever bytes there are, skipping goes as far as decoding. -/
theorem map_decodeFrom (n shift : ℕ) (bytes : List UInt8) :
    (decodeFrom n shift bytes).map Prod.snd = skip bytes := by
  induction bytes generalizing n shift with
  | nil => rfl
  | cons b bytes ih =>
    rw [decodeFrom, skip]
    split
    · exact ih _ _
    · rfl

theorem map_decode (bytes : List UInt8) : (decode bytes).map Prod.snd = skip bytes :=
  map_decodeFrom 0 0 bytes

example : encode 300 = [0xAC, 0x02] := by decide +kernel

/-! ## Numbers of fixed length -/

/-- The lowest `k` bytes of a number, the lowest first. -/
def littleEndian : ℕ → ℕ → List UInt8
  | 0, _ => []
  | k + 1, n => (n &&& 0xFF).toUInt8 :: littleEndian k (n >>> 8)

def ofLittleEndian : List UInt8 → ℕ
  | [] => 0
  | b :: bytes => b.toNat ||| ofLittleEndian bytes <<< 8

theorem length_littleEndian (k n : ℕ) : (littleEndian k n).length = k := by
  induction k generalizing n with
  | zero => rfl
  | succ k ih => rw [littleEndian, List.length_cons, ih]

theorem ofLittleEndian_littleEndian {k n : ℕ} (hn : n < 256 ^ k) :
    ofLittleEndian (littleEndian k n) = n := by
  induction k generalizing n with
  | zero => exact (Nat.lt_one_iff.1 hn).symm
  | succ k ih =>
    have hlow : n &&& 0xFF = n % 256 := Nat.and_two_pow_sub_one_eq_mod n 8
    have hhigh : n >>> 8 = n / 256 := Nat.shiftRight_eq_div_pow n 8
    have hbyte : (n % 256).toUInt8.toNat = n % 256 := by
      rw [Nat.toUInt8_eq, UInt8.toNat_ofNat']
      omega
    have hrest : n / 256 < 256 ^ k := by
      rw [Nat.pow_succ] at hn
      exact Nat.div_lt_of_lt_mul (by omega)
    have hbits : n % 256 < 2 ^ 8 := Nat.mod_lt n (by decide)
    rw [littleEndian, ofLittleEndian, hlow, hhigh, hbyte, ih hrest, or_shiftLeft hbits]
    omega

end Varint
