import HadoopExamples.Library.Split

set_option autoImplicit false

/-! # Scala text

The strings of the Scala scripts come from anywhere, so they are lists of UTF-16 code units and need
not be well-formed. -/

namespace HadoopExamples.Scala

abbrev ScalaString := List UInt16

/-- An ASCII literal. -/
def literal (s : List Char) : ScalaString := s.map fun c => UInt16.ofNat c.toNat

/-- `s.split(" ")` -/
def splitBlank (s : ScalaString) : List ScalaString :=
  Split.dropTrailing (s.splitOnP (· == 0x20))

inductive ScalaException where
  | stringIndexOutOfBounds
deriving DecidableEq

/-- `s.substring(beginIndex, endIndex)` -/
def substring (s : ScalaString) (beginIndex endIndex : ℕ) : Except ScalaException ScalaString :=
  if beginIndex ≤ endIndex ∧ endIndex ≤ s.length then
    .ok ((s.drop beginIndex).take (endIndex - beginIndex))
  else .error .stringIndexOutOfBounds

/-- `ws.mkString(",")` -/
def mkStringComma (ws : List ScalaString) : ScalaString := (literal [',']).intercalate ws

end HadoopExamples.Scala
