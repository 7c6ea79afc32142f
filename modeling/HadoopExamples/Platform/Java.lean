import Mathlib.Data.BitVec
import Mathlib.Data.List.Lex
import HadoopExamples.Library.Split

set_option autoImplicit false

/-! # What the Java sources use of Java and of Hadoop's writables

Strings are lists of characters: the sources only get them by decoding a `Text`, so they are
well-formed, and only cut them at ASCII characters. A Java `int` is a 32-bit vector, whose addition
wraps around. `Text` is kept apart from strings for its order, which compares UTF-8 bytes, and
`IntWritable` from integers for its order, which is that of the signed values. -/

namespace HadoopExamples

abbrev JavaString := List Char

/-- A Java `int`. -/
abbrev JavaInt := BitVec 32

/-- A Java `long`. -/
abbrev JavaLong := BitVec 64

namespace JavaString

/-- `s.split(sep)` for a pattern of one plain character. -/
def splitChar (sep : Char) (s : JavaString) : List JavaString :=
  Split.dropTrailing (s.splitOnP (· == sep))

/-- The class `\w` of Java regular expressions, `[a-zA-Z_0-9]`. -/
def isWordChar (c : Char) : Bool :=
  ('a' ≤ c && c ≤ 'z') || ('A' ≤ c && c ≤ 'Z') || c == '_' || ('0' ≤ c && c ≤ '9')

/-- `s.split("\\W+", -1)`: all pieces between runs of non-word characters. -/
def splitNonWordAll (s : JavaString) : List JavaString :=
  Split.runPieces (fun c => !isWordChar c) false s

/-- `s.split("\\W+")`. -/
def splitNonWord (s : JavaString) : List JavaString :=
  Split.dropTrailing s.splitNonWordAll

/-- The number of places at which `w` is a maximal run of `[A-Za-z0-9_]` in `s`. -/
def wordCount (s w : JavaString) : ℕ := Split.runCount isWordChar s w

/-- The non-empty pieces of a split at `\W+` are the maximal runs of word characters. -/
theorem count_splitNonWordAll {w : JavaString} (hw : w ≠ []) (s : JavaString) :
    s.splitNonWordAll.count w = s.wordCount w :=
  Split.count_runPieces isWordChar hw s

@[simp] theorem wordCount_nil (s : JavaString) : s.wordCount [] = 0 := by
  simp [wordCount, Split.runCount, Split.IsRunAt]

/-- `Integer.parseInt` and `Long.parseLong`, for the bits of the type; `none` is a
    `NumberFormatException`. Java takes decimal digits of any script, so the value of a character as
    a digit is a parameter. -/
def parseNumber (digit : Char → Option ℕ) (bits : ℕ) (s : JavaString) : Option (BitVec bits) := do
  let (sign, digits) : ℤ × JavaString := match s with
    | '-' :: digits => (-1, digits)
    | '+' :: digits => (1, digits)
    | digits => (1, digits)
  guard (digits ≠ [])
  let values ← digits.mapM digit
  let number : ℤ := sign * (values.foldl (fun n value => 10 * n + value) 0 : ℕ)
  guard (-2 ^ (bits - 1) ≤ number ∧ number < 2 ^ (bits - 1))
  return BitVec.ofInt bits number

end JavaString

/-- `org.apache.hadoop.io.Text`. -/
@[ext] structure Text where
  chars : JavaString

namespace Text

/-- The UTF-8 bytes that a `Text` stores and is compared by. -/
def bytes (t : Text) : List ℕ :=
  (t.chars.flatMap String.utf8EncodeChar).map UInt8.toNat

theorem bytes_injective : Function.Injective bytes := by
  intro t u h
  have henc : t.chars.flatMap String.utf8EncodeChar = u.chars.flatMap String.utf8EncodeChar :=
    List.map_injective_iff.2 (fun _ _ => UInt8.toNat_inj.1) h
  have hstr : String.ofList t.chars = String.ofList u.chars := by
    rw [← String.toByteArray_inj, String.toByteArray_ofList, String.toByteArray_ofList,
      List.utf8Encode, List.utf8Encode, henc]
  have hchars := congrArg String.toList hstr
  rw [String.toList_ofList, String.toList_ofList] at hchars
  cases t
  cases u
  exact congrArg Text.mk hchars

/-- `Text.compareTo`: unsigned bytewise. -/
instance : LinearOrder Text := LinearOrder.lift' bytes bytes_injective

end Text

/-- `org.apache.hadoop.io.IntWritable`. -/
@[ext] structure IntWritable where
  value : JavaInt
deriving DecidableEq

/-- `IntWritable.compareTo`: by the signed value. -/
instance : LinearOrder IntWritable :=
  LinearOrder.lift' (fun w : IntWritable => w.value.toInt) fun _ _ h =>
    IntWritable.ext (BitVec.eq_of_toInt_eq h)

abbrev NullWritable := Unit

namespace JavaInt

/-- An `int` below another one can be incremented without overflow. -/
theorem toInt_add_one {x y : JavaInt} (h : x.slt y = true) : (x + 1).toInt = x.toInt + 1 := by
  have hlt : x.toInt < y.toInt := BitVec.slt_iff_toInt_lt.1 h
  have hx : -2 ^ 31 ≤ x.toInt := BitVec.le_toInt x
  have hy : y.toInt < 2 ^ 31 := BitVec.toInt_lt
  have hone : (1 : JavaInt).toInt = 1 := rfl
  rw [BitVec.toInt_add, hone]
  exact Int.bmod_eq_of_le (by omega) (by omega)

theorem toInt_sub_one {x : JavaInt} (hx : 0 ≤ x.toInt) : (x - 1).toInt = x.toInt - 1 := by
  have hlt : x.toInt < 2 ^ 31 := BitVec.toInt_lt
  have hone : (1 : JavaInt).toInt = 1 := rfl
  rw [BitVec.toInt_sub, hone]
  exact Int.bmod_eq_of_le (by omega) (by omega)

/-! ## Small numbers

On natural numbers below `2^31` the signed operations of Java are those of the natural numbers. -/

variable {m n : ℕ}

theorem toInt_ofNat (hn : n < 2 ^ 31) : (BitVec.ofNat 32 n).toInt = n := by
  have htoNat : (BitVec.ofNat 32 n).toNat = n := by
    rw [BitVec.toNat_ofNat, Nat.mod_eq_of_lt (by omega)]
  rw [BitVec.toInt_eq_toNat_of_lt (by omega), htoNat]

theorem eq_ofNat {x : JavaInt} (hx : 0 ≤ x.toInt) : x = BitVec.ofNat 32 x.toInt.toNat := by
  have hlt : x.toInt < 2 ^ 31 := BitVec.toInt_lt
  refine BitVec.eq_of_toInt_eq ?_
  rw [toInt_ofNat (by omega), Int.toNat_of_nonneg hx]

theorem ofNat_inj (hm : m < 2 ^ 31) (hn : n < 2 ^ 31) :
    BitVec.ofNat 32 m = BitVec.ofNat 32 n ↔ m = n := by
  refine ⟨fun h => ?_, fun h => by rw [h]⟩
  have hint := congrArg BitVec.toInt h
  rw [toInt_ofNat hm, toInt_ofNat hn] at hint
  exact Int.ofNat.inj hint

theorem sdiv_ofNat (hm : m < 2 ^ 31) (hn : n < 2 ^ 31) :
    (BitVec.ofNat 32 m).sdiv (BitVec.ofNat 32 n) = BitVec.ofNat 32 (m / n) := by
  have hquot : m / n < 2 ^ 31 := lt_of_le_of_lt (Nat.div_le_self m n) hm
  refine BitVec.eq_of_toInt_eq ?_
  rw [BitVec.toInt_sdiv, toInt_ofNat hm, toInt_ofNat hn, toInt_ofNat hquot,
    Int.tdiv_eq_ediv_of_nonneg (by omega), ← Int.natCast_ediv]
  generalize m / n = q at hquot
  exact Int.bmod_eq_of_le (by omega) (by omega)

theorem srem_ofNat (hm : m < 2 ^ 31) (hn : n < 2 ^ 31) :
    (BitVec.ofNat 32 m).srem (BitVec.ofNat 32 n) = BitVec.ofNat 32 (m % n) := by
  have hrem : m % n < 2 ^ 31 := lt_of_le_of_lt (Nat.mod_le m n) hm
  refine BitVec.eq_of_toInt_eq ?_
  rw [BitVec.toInt_srem, toInt_ofNat hm, toInt_ofNat hn, toInt_ofNat hrem,
    Int.tmod_eq_emod_of_nonneg (by omega), Int.natCast_emod]

theorem slt_ofNat (hm : m < 2 ^ 31) (hn : n < 2 ^ 31) :
    (BitVec.ofNat 32 m).slt (BitVec.ofNat 32 n) = decide (m < n) := by
  rw [BitVec.slt_eq_decide, toInt_ofNat hm, toInt_ofNat hn]
  exact decide_eq_decide.2 Int.ofNat_lt

end JavaInt

end HadoopExamples
