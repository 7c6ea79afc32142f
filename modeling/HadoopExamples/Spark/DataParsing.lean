import HadoopExamples.Library.Regex
import HadoopExamples.Platform.Scala

set_option autoImplicit false

/-! # Parsing web logs

`data-parsing.scala` reads lines with a regular expression and turns a line that does not match into
a `Weblog` whose `ip` is `error`. It tells the two apart again by this field, which the expression
may capture as well: `separated_iff` says which lines do that. -/

namespace HadoopExamples.DataParsing

open Scala

/-! ## The script -/

structure Weblog where
  ip : ScalaString
  userid : ScalaString
  req_ts : ScalaString
deriving DecidableEq

/-- `.`: no line terminator. -/
def dot (c : UInt16) : Bool := c ∉ [0x0A, 0x0D, 0x85, 0x2028, 0x2029]

/-- `\d` -/
def digit (c : UInt16) : Bool := 0x30 ≤ c && c ≤ 0x39

/-- `(.*) - (\d+) \"\[(.+)\]\".*` -/
def regex : Regex UInt16 :=
  .seq (.group (.many dot)) <| .seq (.text (literal " - ".toList)) <|
  .seq (.group (.plus digit)) <| .seq (.text (literal " \"[".toList)) <|
  .seq (.group (.plus dot)) <| .seq (.text (literal "]\"".toList)) <| .many dot

/-- `case regex(ip, userid, req_ts) => Weblog(ip, userid, req_ts)`, for a line that the case is for. -/
def captured (line : ScalaString) : Option Weblog :=
  match regex.fullMatch line with
  | some [ip, userid, req_ts] => some ⟨ip, userid, req_ts⟩
  | _ => none

def weblog (line : ScalaString) : Weblog :=
  (captured line).getD ⟨literal "error".toList, line, []⟩

def weblogs (data : List ScalaString) : List Weblog := data.map weblog

def errors (data : List ScalaString) : List Weblog :=
  (weblogs data).filter fun wl => wl.ip = literal "error".toList

def not_errors (data : List ScalaString) : List Weblog :=
  (weblogs data).filter fun wl => wl.ip ≠ literal "error".toList

/-- One error for each line that does not match, with the line, and one other entry for each line
    that does, with what its groups capture. -/
structure Separated (data : List ScalaString) : Prop where
  errors : ((errors data).map Weblog.userid).Perm
    (data.filter fun line => ¬ ∃ gs, regex.Matches line gs)
  not_errors : (not_errors data).Perm (data.filterMap captured)

/-- The line matches with `error` as its first group, and with no longer one. -/
def InBand (line : ScalaString) : Prop :=
  (∃ gs, regex.Matches line (literal "error".toList :: gs)) ∧
    ∀ ip gs, regex.Matches line (ip :: gs) → ip.length ≤ (literal "error".toList).length

/-! ## What the expression captures -/

theorem captured_eq_some_iff {line : ScalaString} {wl : Weblog} :
    captured line = some wl ↔ regex.fullMatch line = some [wl.ip, wl.userid, wl.req_ts] := by
  unfold captured
  split
  · rename_i heq
    rw [heq]
    obtain ⟨ip, userid, req_ts⟩ := wl
    simp
  · rename_i hother
    refine iff_of_false nofun ?_
    exact hother _ _ _

theorem isSome_captured_iff {line : ScalaString} :
    (captured line).isSome = true ↔ ∃ gs, regex.Matches line gs := by
  rw [← Regex.isSome_fullMatch_iff, Option.isSome_iff_exists, Option.isSome_iff_exists]
  constructor
  · rintro ⟨wl, hwl⟩
    exact ⟨_, captured_eq_some_iff.1 hwl⟩
  · rintro ⟨gs, hgs⟩
    obtain ⟨ip, userid, req_ts, rfl⟩ :=
      List.length_eq_three.1 (Regex.matches_of_fullMatch hgs).length_groups
    exact ⟨⟨ip, userid, req_ts⟩, captured_eq_some_iff.2 hgs⟩

/-- A match is taken for an error exactly if the longest first group is `error`. -/
theorem captured_error_iff {line : ScalaString} :
    (∃ wl, captured line = some wl ∧ wl.ip = literal "error".toList) ↔ InBand line := by
  constructor
  · rintro ⟨wl, hwl, hip⟩
    have hmatch := captured_eq_some_iff.1 hwl
    rw [hip] at hmatch
    refine ⟨⟨_, Regex.matches_of_fullMatch hmatch⟩, fun ip gs h => ?_⟩
    exact Regex.length_le_of_fullMatch hmatch h
  · rintro ⟨⟨gs, hmatch⟩, hlongest⟩
    obtain ⟨wl, hwl⟩ := Option.isSome_iff_exists.1 (isSome_captured_iff.2 ⟨_, hmatch⟩)
    have hfull := captured_eq_some_iff.1 hwl
    have hmatch' := Regex.matches_of_fullMatch hfull
    have hle := hlongest _ _ hmatch'
    have hge := Regex.length_le_of_fullMatch hfull hmatch
    -- both groups are the first part of the line of this length
    refine ⟨wl, hwl, ?_⟩
    exact (List.prefix_of_prefix_length_le hmatch'.first_prefix hmatch.first_prefix hle).eq_of_length
      (Nat.le_antisymm hle hge)

/-! ## What is told apart -/

theorem weblog_of_captured {line : ScalaString} {wl : Weblog} (h : captured line = some wl) :
    weblog line = wl := by
  rw [weblog, h, Option.getD_some]

theorem weblog_of_none {line : ScalaString} (h : captured line = none) :
    weblog line = ⟨literal "error".toList, line, []⟩ := by
  rw [weblog, h, Option.getD_none]

/-- The other entries are the captured ones, without those that are taken for errors. -/
theorem not_errors_eq (data : List ScalaString) :
    not_errors data
      = (data.filterMap captured).filter fun wl => wl.ip ≠ literal "error".toList := by
  unfold not_errors weblogs
  induction data with
  | nil => rfl
  | cons line data ih =>
    rw [List.map_cons]
    cases h : captured line with
    | none =>
      have herror : ¬ decide ((weblog line).ip ≠ literal "error".toList) = true := fun hne =>
        of_decide_eq_true hne (by rw [weblog_of_none h])
      rw [List.filterMap_cons_none h, List.filter_cons, if_neg herror, ih]
    | some wl =>
      rw [weblog_of_captured h, List.filterMap_cons_some h]
      by_cases hip : wl.ip = literal "error".toList
      · have herror : ¬ decide (wl.ip ≠ literal "error".toList) = true := fun hne =>
          of_decide_eq_true hne hip
        rw [List.filter_cons, if_neg herror, List.filter_cons, if_neg herror, ih]
      · have hok : decide (wl.ip ≠ literal "error".toList) = true := decide_eq_true hip
        rw [List.filter_cons, if_pos hok, List.filter_cons, if_pos hok, ih]

theorem errors_eq {data : List ScalaString} (h : ∀ line ∈ data, ¬ InBand line) :
    (errors data).map Weblog.userid
      = data.filter fun line => ¬ ∃ gs, regex.Matches line gs := by
  unfold errors weblogs
  rw [List.filter_map, List.map_map]
  have hfilter : data.filter ((fun wl => decide (wl.ip = literal "error".toList)) ∘ weblog)
      = data.filter fun line => ¬ ∃ gs, regex.Matches line gs := by
    refine List.filter_congr fun line hline => decide_eq_decide.2 ?_
    rw [← isSome_captured_iff]
    cases hcaptured : captured line with
    | none =>
      rw [weblog_of_none hcaptured]
      exact iff_of_true rfl Bool.false_ne_true
    | some wl =>
      have hip : wl.ip ≠ literal "error".toList := fun hip =>
        h line hline (captured_error_iff.1 ⟨wl, hcaptured, hip⟩)
      rw [weblog_of_captured hcaptured]
      exact iff_of_false hip (not_not_intro rfl)
  rw [hfilter]
  refine (List.map_congr_left fun line hline => ?_).trans (List.map_id _)
  have hnone : captured line = none := by
    rw [← Option.not_isSome_iff_eq_none, isSome_captured_iff]
    exact of_decide_eq_true (List.mem_filter.1 hline).2
  rw [Function.comp_apply, weblog_of_none hnone]
  rfl

/-- Every line is told apart as what it is exactly if no match is taken for an error. -/
theorem separated_iff (data : List ScalaString) :
    Separated data ↔ ∀ line ∈ data, ¬ InBand line := by
  refine ⟨fun h line hline hinband => ?_, fun h => ⟨?_, ?_⟩⟩
  · obtain ⟨wl, hwl, hip⟩ := captured_error_iff.2 hinband
    have hlength := h.not_errors.length_eq
    rw [not_errors_eq, List.length_filter_eq_length_iff] at hlength
    have hne := hlength wl (List.mem_filterMap.2 ⟨line, hline, hwl⟩)
    exact of_decide_eq_true hne hip
  · exact List.Perm.of_eq (errors_eq h)
  · rw [not_errors_eq]
    refine List.Perm.of_eq (List.filter_eq_self.2 fun wl hwl => ?_)
    obtain ⟨line, hline, hcaptured⟩ := List.mem_filterMap.1 hwl
    have hip : wl.ip ≠ literal "error".toList := fun hip =>
      h line hline (captured_error_iff.1 ⟨wl, hcaptured, hip⟩)
    simpa using hip

/-- A line of the format whose first field is the mark for errors. -/
theorem error_line_not_separated :
    captured (literal "error - 1 \"[x]\"".toList)
      = some ⟨literal "error".toList, literal "1".toList, literal "x".toList⟩ ∧
    not_errors [literal "error - 1 \"[x]\"".toList] = [] ∧
    ¬ Separated [literal "error - 1 \"[x]\"".toList] := by
  have hcaptured : captured (literal "error - 1 \"[x]\"".toList)
      = some ⟨literal "error".toList, literal "1".toList, literal "x".toList⟩ := by
    decide
  have hnone : not_errors [literal "error - 1 \"[x]\"".toList] = [] := by
    rw [not_errors_eq]
    decide
  refine ⟨hcaptured, hnone, fun h => ?_⟩
  have hlength := h.not_errors.length_eq
  rw [hnone, List.filterMap_cons_some hcaptured] at hlength
  exact absurd hlength (Nat.succ_ne_zero _).symm

end HadoopExamples.DataParsing
