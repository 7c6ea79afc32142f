import Mathlib.Data.Char
import Mathlib.Data.List.Lex
import HadoopExamples.Library.Decimal
import HadoopExamples.Library.KeySort

set_option autoImplicit false

/-! # Python text

What the Python scripts use of the language: strings, ordered by code points as `sorted` compares
them, the padding of the format operators, numbers as text, and `print`. -/

namespace HadoopExamples.Python

/-- A Python string, as the list of its characters. -/
abbrev PyString := List Char

/-- `sorted(l, key=key)`. -/
def sorted {β κ : Type} [LinearOrder κ] (l : List β) (key : β → κ) : List β :=
  KeySort.sortBy key l

/-- `"%-{width}s" % s`. -/
def ljust (width : ℕ) (s : PyString) : PyString :=
  s ++ List.replicate (width - s.length) ' '

/-- `"{s:{fill}^{width}}".format(..)`; an odd padding has its extra character on the right. -/
def center (fill : Char) (width : ℕ) (s : PyString) : PyString :=
  let padding := width - s.length
  List.replicate (padding / 2) fill ++ s ++ List.replicate (padding - padding / 2) fill

/-- `str(n)` -/
def str (n : ℕ) : PyString := Decimal.zeroPad 1 n

theorem str_injective : Function.Injective str := Decimal.zeroPad_injective 1

theorem isDigit_of_mem_str {n : ℕ} {c : Char} (hc : c ∈ str n) : c.isDigit = true :=
  Decimal.isDigit_of_mem_zeroPad hc

/-- A comma before every third digit but the first, for digits from the last to the first. -/
def groupDigits : PyString → PyString
  | a :: b :: c :: d :: digits => a :: b :: c :: ',' :: groupDigits (d :: digits)
  | digits => digits

/-- `locale.format("%d", n, grouping=True)` in the locale `en_US`. -/
def localeFormat (n : ℕ) : PyString := (groupDigits (str n).reverse).reverse

example : localeFormat 1000000 = "1,000,000".toList := by decide

/-- `s * count` -/
def times (s : PyString) (count : ℕ) : PyString := (List.replicate count s).flatten

/-- The output of `print s`. -/
def print (s : PyString) : PyString := s ++ ['\n']

/-- `if s:` for a string or `None`. -/
def truthy : Option PyString → Option PyString
  | some (c :: s) => some (c :: s)
  | _ => none

end HadoopExamples.Python
