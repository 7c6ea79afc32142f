import HadoopExamples.Library.Decimal
import HadoopExamples.TotalOrder.ProcessLogs

set_option autoImplicit false

/-! # The text output of ProcessLogs

The ordering job writes a record as one line: the key, the separator and the count. `ProcessLogs`
sets the separator to the empty string, so a count can pass for the end of an address.
`textLines_determine_counts` says which records share a line, and that two inputs without such
records between them are told apart by their output. -/

namespace HadoopExamples

open MapperFunction

namespace ProcessLogs

/-- `mapred.textoutputformat.separator` -/
def separator : JavaString := []

/-- `TextOutputFormat`: the line of a record, without its line break. -/
def textLine (record : Text × JavaInt) : JavaString :=
  record.1.chars ++ separator ++ Decimal.ofInt record.2.toInt

variable {lines lines' : List Text}

/-- The lines that a run of both jobs writes, in partition order. -/
def Execution.textLines (e : Execution lines) : List JavaString := e.output.map textLine

/-- The count that a month and a first field are written with. -/
def countOf (lines : List Text) (month ip : JavaString) : JavaInt :=
  BitVec.ofNat 32 (lines.countP fun line => Accepted month ip line.chars)

/-- `ip'` is `ip` and some more text, and with its own count after it this text is the count of
    `ip`. -/
def RunsInto (ip : JavaString) (n : JavaInt) (ip' : JavaString) (n' : JavaInt) : Prop :=
  ∃ more ≠ [], ip' = ip ++ more ∧ Decimal.ofInt n.toInt = more ++ Decimal.ofInt n'.toInt

/-- Some first field of `lines`, with its count, runs into one of `lines'` of the same month. -/
def Ambiguous (lines lines' : List Text) : Prop :=
  ∃ month ip ip', (∃ line ∈ lines, Accepted month ip line.chars) ∧
    (∃ line ∈ lines', Accepted month ip' line.chars) ∧
    RunsInto ip (countOf lines month ip) ip' (countOf lines' month ip')

/-! ## Which records share a line -/

theorem decimal_toInt_injective {n n' : JavaInt}
    (h : Decimal.ofInt n.toInt = Decimal.ofInt n'.toInt) : n = n' :=
  BitVec.eq_of_toInt_eq (Decimal.ofInt_injective h)

/-- A first field and a count make the same text in two ways only if one of the first fields takes
    over the beginning of the other's count. -/
theorem append_decimal_eq_iff {ip ip' : JavaString} {n n' : JavaInt} :
    ip ++ Decimal.ofInt n.toInt = ip' ++ Decimal.ofInt n'.toInt ↔
      (ip = ip' ∧ n = n') ∨ RunsInto ip n ip' n' ∨ RunsInto ip' n' ip n := by
  constructor
  · intro h
    rcases List.append_eq_append_iff.1 h with ⟨more, hip, hn⟩ | ⟨more, hip, hn⟩
    · rcases eq_or_ne more [] with rfl | hmore
      · rw [List.append_nil] at hip
        exact Or.inl ⟨hip.symm, decimal_toInt_injective hn⟩
      · exact Or.inr (Or.inl ⟨more, hmore, hip, hn⟩)
    · rcases eq_or_ne more [] with rfl | hmore
      · rw [List.append_nil] at hip
        exact Or.inl ⟨hip, (decimal_toInt_injective hn).symm⟩
      · exact Or.inr (Or.inr ⟨more, hmore, hip, hn⟩)
  · rintro (⟨rfl, rfl⟩ | ⟨more, _, rfl, hn⟩ | ⟨more, _, rfl, hn⟩)
    · rfl
    · rw [hn, List.append_assoc]
    · rw [hn, List.append_assoc]

/-- Month names have one length, so only the border between address and count is open. -/
theorem textLine_key_eq_iff {month month' : JavaString} (hm : month ∈ months)
    (hm' : month' ∈ months) (ip ip' : JavaString) (n n' : JavaInt) :
    textLine (LogMonthMapper.key month ip, n) = textLine (LogMonthMapper.key month' ip', n') ↔
      month = month' ∧ ((ip = ip' ∧ n = n') ∨ RunsInto ip n ip' n' ∨ RunsInto ip' n' ip n) := by
  have hline : ∀ m a k, textLine (LogMonthMapper.key m a, k)
      = m ++ '.' :: (a ++ Decimal.ofInt k.toInt) := by
    intro m a k
    simp [textLine, LogMonthMapper.key, separator]
  rw [hline, hline, ← append_decimal_eq_iff]
  refine ⟨fun h => ?_, fun h => by rw [h.1, h.2]⟩
  have hlength : month.length = month'.length := by
    rw [(months_clean hm).1, (months_clean hm').1]
  obtain ⟨hmonth, hrest⟩ := List.append_inj h hlength
  exact ⟨hmonth, (List.cons.inj hrest).2⟩

/-- Without first fields that run into each other, a line of one run that the other run writes
    too comes from the same record. -/
theorem mem_output_of_textLine {e : Execution lines} {e' : Execution lines'}
    (hto : ¬ Ambiguous lines lines') (hfrom : ¬ Ambiguous lines' lines) {r : Text × JavaInt}
    (hr : r ∈ e.output) (hline : textLine r ∈ e'.textLines) : r ∈ e'.output := by
  obtain ⟨r', hr', heq⟩ := List.mem_map.1 hline
  obtain ⟨m, ip, hmem, rfl⟩ := Execution.mem_output hr
  obtain ⟨m', ip', hmem', rfl⟩ := Execution.mem_output hr'
  have hacc := mem_accepted.1 hmem
  have hacc' := mem_accepted.1 hmem'
  have hm : m ∈ months := hacc.elim fun _ h => h.2.1
  have hm' : m' ∈ months := hacc'.elim fun _ h => h.2.1
  obtain ⟨rfl, ⟨rfl, hn⟩ | hruns | hruns⟩ := (textLine_key_eq_iff hm' hm ip' ip _ _).1 heq
  · rw [← hn]
    exact hr'
  · exact absurd ⟨m', ip', ip, hacc', hacc, hruns⟩ hfrom
  · exact absurd ⟨m', ip, ip', hacc, hacc', hruns⟩ hto

/-- First fields of one width do not run into each other. -/
theorem not_ambiguous_of_width (width : ℕ) (h : ∀ mi ∈ accepted lines, mi.2.length = width)
    (h' : ∀ mi ∈ accepted lines', mi.2.length = width) : ¬ Ambiguous lines lines' := by
  intro ⟨m, ip, ip', hacc, hacc', more, hne, hip, _⟩
  have hwidth := h (m, ip) (mem_accepted.2 hacc)
  have hwidth' := h' (m, ip') (mem_accepted.2 hacc')
  rw [hip, List.length_append, hwidth] at hwidth'
  exact hne (List.length_eq_zero_iff.1 (by omega))

/-- Two records are written as one line exactly when they are of one month and either equal or one
    first field takes over the beginning of the other's count; and two inputs without such first
    fields between them that give the same set of lines give the same counts. -/
theorem textLines_determine_counts :
    (∀ month ∈ months, ∀ month' ∈ months, ∀ ip ip' n n',
      textLine (LogMonthMapper.key month ip, n) = textLine (LogMonthMapper.key month' ip', n') ↔
        month = month' ∧ ((ip = ip' ∧ n = n') ∨ RunsInto ip n ip' n' ∨ RunsInto ip' n' ip n)) ∧
    ∀ (lines lines' : List Text) (e : Execution lines) (e' : Execution lines'),
      ¬ Ambiguous lines lines' → ¬ Ambiguous lines' lines →
      (∀ line, line ∈ e.textLines ↔ line ∈ e'.textLines) →
      ∀ r, r ∈ e.output ↔ r ∈ e'.output := by
  refine ⟨fun m hm m' hm' ip ip' n n' => textLine_key_eq_iff hm hm' ip ip' n n', ?_⟩
  intro lines lines' e e' hto hfrom hlines r
  refine ⟨fun hr => ?_, fun hr => ?_⟩
  · exact mem_output_of_textLine hto hfrom hr ((hlines _).1 (List.mem_map_of_mem hr))
  · exact mem_output_of_textLine hfrom hto hr ((hlines _).2 (List.mem_map_of_mem hr))

/-- Three lines of one address, two of them of one month, and one of another address -/
def someLines : List Text :=
  [⟨"9.9 - - [24/Apr/2011".toList⟩, ⟨"8.8 - - [24/Apr/2011".toList⟩,
    ⟨"9.9 - - [25/Apr/2011".toList⟩, ⟨"9.9 - - [1/Mar/2011".toList⟩]

/-- As many, of other days -/
def otherLines : List Text :=
  [⟨"9.9 - - [2/Mar/2011".toList⟩, ⟨"9.9 - - [3/Apr/2011".toList⟩,
    ⟨"9.9 - - [4/Apr/2011".toList⟩, ⟨"8.8 - - [5/Apr/2011".toList⟩]

def someLinesRun : Execution someLines := Execution.first someLines

def otherLinesRun : Execution otherLines := Execution.first otherLines

theorem textLines_determine_counts_someLines :
    (textLine (LogMonthMapper.key "Apr".toList "9.9".toList, 11)
        = textLine (LogMonthMapper.key "Apr".toList "9.91".toList, 1) ↔
      "Apr".toList = "Apr".toList ∧ (("9.9".toList = "9.91".toList ∧ (11 : JavaInt) = 1) ∨
        RunsInto "9.9".toList 11 "9.91".toList 1 ∨ RunsInto "9.91".toList 1 "9.9".toList 11)) ∧
    (∀ r, r ∈ someLinesRun.output ↔ r ∈ otherLinesRun.output) ∧
    someLinesRun.textLines = ["Apr.8.81".toList, "Apr.9.92".toList, "Mar.9.91".toList] := by
  have hlines : someLinesRun.textLines = otherLinesRun.textLines := by decide
  refine ⟨textLines_determine_counts.1 _ (by decide) _ (by decide) _ _ _ _,
    textLines_determine_counts.2 _ _ someLinesRun otherLinesRun ?_ ?_ fun line => by rw [hlines],
    by decide⟩
  · exact not_ambiguous_of_width 3 (by decide) (by decide)
  · exact not_ambiguous_of_width 3 (by decide) (by decide)

/-- Eleven requests from `1.2.3.4` leave the same text as one from `1.2.3.41`. -/
theorem textLines_not_injective :
    ∃ (lines lines' : List Text) (e : Execution lines) (e' : Execution lines'),
      e.textLines = ["Apr.1.2.3.411".toList] ∧ e'.textLines = ["Apr.1.2.3.411".toList] ∧
      e.output = [(LogMonthMapper.key "Apr".toList "1.2.3.4".toList, 11)] ∧
      e'.output = [(LogMonthMapper.key "Apr".toList "1.2.3.41".toList, 1)] ∧
      e.output ≠ e'.output := by
  refine ⟨List.replicate 11 ⟨"1.2.3.4 - - [24/Apr/2011".toList⟩,
    [⟨"1.2.3.41 - - [24/Apr/2011".toList⟩], Execution.single _ (fun _ => 0) fun _ _ _ => le_refl _,
    Execution.single _ (fun _ => 0) fun _ _ _ => le_refl _, ?_, ?_, ?_, ?_, ?_⟩ <;> decide +kernel

end ProcessLogs

end HadoopExamples
