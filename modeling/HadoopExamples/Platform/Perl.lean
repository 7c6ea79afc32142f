import Mathlib.Data.List.TakeWhile

set_option autoImplicit false

/-! # What the Perl scripts use of Perl

A scalar is a string or `undef`, which is `none` here and reads as the empty string. -/

namespace HadoopExamples.Perl

abbrev PerlString := List Char

abbrev Scalar := Option PerlString

/-- A scalar in a string. -/
def text (s : Scalar) : PerlString := s.getD []

/-- A scalar as a condition: `undef`, the empty string and `0` are false. -/
def truthy (s : Scalar) : Bool := text s != [] && text s != ['0']

theorem truthy_iff {s : PerlString} (hs : s ≠ []) : truthy (some s) = true ↔ s ≠ ['0'] := by
  simp [truthy, text, hs]

/-- The lines that `<>` reads, each with its line break. -/
def readLines : PerlString → List PerlString
  | [] => []
  | c :: cs =>
    if c = '\n' then [c] :: readLines cs
    else
      match readLines cs with
      | [] => [[c]]
      | line :: lines => (c :: line) :: lines

/-- The pieces of `split /sep/, s, limit` of a non-empty string, for a pattern of one plain
    character and a positive limit: the last piece has all that is left. -/
def pieces (sep : Char) : ℕ → PerlString → List PerlString
  | 0, s => [s]
  | cuts + 1, s =>
    match s.dropWhile (· ≠ sep) with
    | [] => [s]
    | _ :: rest => s.takeWhile (· ≠ sep) :: pieces sep cuts rest

/-- `split /sep/, s, limit`, for a positive limit. -/
def split (sep : Char) (limit : ℕ) (s : PerlString) : List PerlString :=
  if s = [] then [] else pieces sep (limit - 1) s

theorem readLines_append {line : PerlString} (hline : '\n' ∉ line) (rest : PerlString) :
    readLines (line ++ '\n' :: rest) = (line ++ ['\n']) :: readLines rest := by
  induction line with
  | nil => rw [List.nil_append, readLines, if_pos rfl, List.nil_append]
  | cons c line ih =>
    rw [List.mem_cons, not_or] at hline
    rw [List.cons_append, readLines, if_neg (Ne.symm hline.1), ih hline.2]
    rfl

/-- The first cut of a string at its first separator. -/
theorem pieces_append {sep : Char} {w : PerlString} (hw : sep ∉ w) (cuts : ℕ)
    (rest : PerlString) : pieces sep (cuts + 1) (w ++ sep :: rest) = w :: pieces sep cuts rest := by
  have hfree : ∀ c ∈ w, decide (c ≠ sep) = true := by
    intro c hc
    exact decide_eq_true fun heq : c = sep => hw (heq ▸ hc)
  rw [pieces, List.dropWhile_append_of_pos hfree, List.takeWhile_append_of_pos hfree]
  simp

/-- The first piece goes up to the first separator, or to the end. -/
theorem getElem?_zero_pieces (sep : Char) (cuts : ℕ) (s : PerlString) :
    (pieces sep (cuts + 1) s)[0]? = some (s.takeWhile (· ≠ sep)) := by
  rw [pieces]
  split
  · rename_i hnone
    have hwhole := List.takeWhile_append_dropWhile (p := fun c => decide (c ≠ sep)) (l := s)
    rw [hnone, List.append_nil] at hwhole
    rw [hwhole]
    rfl
  · rfl

end HadoopExamples.Perl
