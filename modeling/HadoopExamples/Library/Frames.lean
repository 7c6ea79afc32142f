import Mathlib.Data.List.Basic

set_option autoImplicit false

/-! # Frames

A message as chunks, each of them with its length in front, and a length of zero behind the last
one. The lengths are written in a fixed width (`Format`), so that the receiver can tell where it is
from what has arrived alone.

`split` takes from what has arrived the chunks that are complete. It makes no difference in how many
pieces a message arrives (`split_append`), and the end is found with its last piece and not before
(`ended_of_frames`, `not_ended_of_prefix`). -/

namespace Frames

/-- How lengths up to a bound are written. -/
structure Format (β : Type) where
  width : ℕ
  bound : ℕ
  encode : ℕ → List β
  decode : List β → ℕ
  bound_pos : 0 < bound
  length_encode : ∀ n, (encode n).length = width
  decode_encode : ∀ n, n < bound → decode (encode n) = n

variable {β : Type} (f : Format β)

def Format.frame (chunk : List β) : List β := f.encode chunk.length ++ chunk

/-- The chunks of a message and its end. -/
def Format.frames (chunks : List (List β)) : List β := chunks.flatMap f.frame ++ f.encode 0

/-- The length that is next is zero. -/
def Format.Ended (l : List β) : Prop := f.width ≤ l.length ∧ f.decode (l.take f.width) = 0

instance (l : List β) : Decidable (f.Ended l) := inferInstanceAs (Decidable (_ ∧ _))

/-- The first chunk, if all of it is there, and what is behind it. -/
def Format.next (l : List β) : Option (List β × List β) :=
  if l.length < f.width then none
  else if f.decode (l.take f.width) = 0 then none
  else if l.length < f.decode (l.take f.width) + f.width then none
  else some ((l.drop f.width).take (f.decode (l.take f.width)),
    l.drop (f.decode (l.take f.width) + f.width))

variable {f}

theorem next_eq_some_iff {l chunk rest : List β} : f.next l = some (chunk, rest) ↔
    ∃ header, l = header ++ (chunk ++ rest) ∧ header.length = f.width ∧
      f.decode header = chunk.length ∧ chunk ≠ [] := by
  unfold Format.next
  constructor
  · intro h
    split at h
    · cases h
    split at h
    · cases h
    split at h
    · cases h
    rename_i hwidth hzero hlength
    obtain ⟨rfl, rfl⟩ := Prod.mk.inj (Option.some.inj h)
    have hheader : (l.take f.width).length = f.width := List.length_take_of_le (by omega)
    have hchunk : ((l.drop f.width).take (f.decode (l.take f.width))).length
        = f.decode (l.take f.width) := by
      rw [List.length_take, List.length_drop]
      omega
    refine ⟨l.take f.width, ?_, hheader, hchunk.symm, ?_⟩
    · rw [Nat.add_comm, ← List.drop_drop, List.take_append_drop, List.take_append_drop]
    · intro hnil
      rw [hnil] at hchunk
      exact hzero hchunk.symm
  · rintro ⟨header, rfl, hwidth, hdecode, hne⟩
    have hpos := List.length_pos_of_ne_nil hne
    have htake : (header ++ (chunk ++ rest)).take f.width = header := by
      rw [← hwidth, List.take_left]
    have hdrop : (header ++ (chunk ++ rest)).drop f.width = chunk ++ rest := by
      rw [← hwidth, List.drop_left]
    rw [htake, hdecode, hdrop, Nat.add_comm chunk.length, ← List.drop_drop, hdrop, List.take_left,
      List.drop_left, List.length_append, List.length_append, if_neg (by omega),
      if_neg (by omega), if_neg (by omega)]

theorem next_append {l chunk rest : List β} (h : f.next l = some (chunk, rest)) (m : List β) :
    f.next (l ++ m) = some (chunk, rest ++ m) := by
  obtain ⟨header, rfl, hheader⟩ := next_eq_some_iff.1 h
  refine next_eq_some_iff.2 ⟨header, ?_, hheader⟩
  rw [List.append_assoc, List.append_assoc]

theorem length_of_next {l chunk rest : List β} (h : f.next l = some (chunk, rest)) :
    rest.length < l.length := by
  obtain ⟨header, rfl, -, -, hne⟩ := next_eq_some_iff.1 h
  have hpos := List.length_pos_of_ne_nil hne
  rw [List.length_append, List.length_append]
  omega

theorem next_frame {chunk : List β} (hne : chunk ≠ []) (hbound : chunk.length < f.bound)
    (rest : List β) : f.next (f.frame chunk ++ rest) = some (chunk, rest) :=
  next_eq_some_iff.2 ⟨f.encode chunk.length, List.append_assoc _ _ _, f.length_encode _,
    f.decode_encode _ hbound, hne⟩

theorem next_of_ended {l : List β} (h : f.Ended l) : f.next l = none := by
  unfold Format.next
  rw [if_neg (Nat.not_lt.2 h.1), if_pos h.2]

variable (f) in
/-- The chunks that are complete, and what is left. -/
def Format.split (l : List β) : List (List β) × List β :=
  match _h : f.next l with
  | none => ([], l)
  | some (chunk, rest) => (chunk :: (Format.split rest).1, (Format.split rest).2)
termination_by l.length
decreasing_by all_goals exact length_of_next ‹_›

theorem split_of_none {l : List β} (h : f.next l = none) : f.split l = ([], l) := by
  unfold Format.split
  split
  · rfl
  · rename_i h'
    rw [h] at h'
    cases h'

theorem split_of_some {l chunk rest : List β} (h : f.next l = some (chunk, rest)) :
    f.split l = (chunk :: (f.split rest).1, (f.split rest).2) := by
  conv_lhs => unfold Format.split
  split
  · rename_i h'
    rw [h] at h'
    cases h'
  · rename_i h'
    rw [h] at h'
    obtain ⟨rfl, rfl⟩ := Prod.mk.inj (Option.some.inj h')
    rfl

/-- In two pieces or in one. -/
theorem split_append (l m : List β) : f.split (l ++ m)
    = ((f.split l).1 ++ (f.split ((f.split l).2 ++ m)).1, (f.split ((f.split l).2 ++ m)).2) := by
  induction l using Format.split.induct (f := f) with
  | case1 l hnext =>
    rw [split_of_none hnext]
    rfl
  | case2 l chunk rest hnext ih =>
    rw [split_of_some hnext, split_of_some (next_append hnext m), ih]
    rfl

/-! ## Messages -/

/-- Every length can be written. -/
def Format.Fits (f : Format β) (chunks : List (List β)) : Prop :=
  ∀ chunk ∈ chunks, chunk ≠ [] ∧ chunk.length < f.bound

theorem ended_encode_zero (l : List β) : f.Ended (f.encode 0 ++ l) := by
  constructor
  · rw [List.length_append, f.length_encode]
    exact Nat.le_add_right _ _
  · rw [← f.length_encode 0, List.take_left]
    exact f.decode_encode 0 f.bound_pos

theorem frames_cons (chunk : List β) (chunks : List (List β)) :
    f.frames (chunk :: chunks) = f.frame chunk ++ f.frames chunks := by
  unfold Format.frames
  rw [List.flatMap_cons, List.append_assoc]

theorem split_frames {chunks : List (List β)} (h : f.Fits chunks) (l : List β) :
    f.split (f.frames chunks ++ l) = (chunks, f.encode 0 ++ l) := by
  induction chunks with
  | nil => exact split_of_none (next_of_ended (ended_encode_zero l))
  | cons chunk chunks ih =>
    obtain ⟨⟨hne, hbound⟩, hrest⟩ := List.forall_mem_cons.1 h
    rw [frames_cons, List.append_assoc, split_of_some (next_frame hne hbound _), ih hrest]

/-- A part of a frame is left as it is. -/
theorem next_of_prefix {chunk l : List β} (hchunk : chunk ≠ []) (hbound : chunk.length < f.bound)
    (hfront : l <+: f.frame chunk) (hne : l ≠ f.frame chunk) :
    f.next l = none ∧ ¬ f.Ended l := by
  have hpos := List.length_pos_of_ne_nil hchunk
  have hlength : l.length < f.width + chunk.length := by
    have hle := hfront.length_le
    have hneq : l.length ≠ (f.frame chunk).length := fun heq => hne (hfront.eq_of_length heq)
    have hframe : (f.frame chunk).length = f.width + chunk.length := by
      rw [Format.frame, List.length_append, f.length_encode]
    omega
  by_cases hwidth : l.length < f.width
  · exact ⟨if_pos hwidth, fun hended => absurd hended.1 (Nat.not_le.2 hwidth)⟩
  · have hheader : l.take f.width = f.encode chunk.length := by
      obtain ⟨m, hm⟩ := hfront
      have htake := congrArg (List.take f.width) hm
      rw [List.take_append_of_le_length (Nat.not_lt.1 hwidth), Format.frame,
        ← f.length_encode chunk.length, List.take_left] at htake
      rw [← f.length_encode chunk.length]
      exact htake
    have hdecode : f.decode (l.take f.width) = chunk.length := by
      rw [hheader]
      exact f.decode_encode _ hbound
    constructor
    · unfold Format.next
      rw [if_neg hwidth, hdecode, if_neg (by omega), if_pos (by omega)]
    · rintro ⟨-, hzero⟩
      omega

/-- Before all of a message has arrived, its end is not found. -/
theorem not_ended_of_prefix {chunks : List (List β)} (h : f.Fits chunks) {l : List β}
    (hfront : l <+: f.frames chunks) (hne : l ≠ f.frames chunks) : ¬ f.Ended (f.split l).2 := by
  induction chunks generalizing l with
  | nil =>
    have hlength : l.length < f.width := by
      have hle := hfront.length_le
      have hneq : l.length ≠ (f.frames []).length := fun heq => hne (hfront.eq_of_length heq)
      have hzero : (f.frames []).length = f.width := f.length_encode 0
      omega
    rw [split_of_none (if_pos hlength)]
    exact fun hended => absurd hended.1 (by dsimp only; omega)
  | cons chunk chunks ih =>
    obtain ⟨⟨hchunk, hbound⟩, hrest⟩ := List.forall_mem_cons.1 h
    rw [frames_cons] at hfront hne
    by_cases hlong : f.frame chunk <+: l
    · obtain ⟨l', rfl⟩ := hlong
      rw [split_of_some (next_frame hchunk hbound l')]
      refine ih hrest ((List.prefix_append_right_inj _).1 hfront) ?_
      rintro rfl
      exact hne rfl
    · rcases List.prefix_or_prefix_of_prefix hfront (List.prefix_append _ _) with hshort | hfull
      · obtain ⟨hnone, hended⟩ := next_of_prefix hchunk hbound hshort fun heq =>
          hlong (heq ▸ List.prefix_rfl)
        rw [split_of_none hnone]
        exact hended
      · exact absurd hfull hlong

end Frames
