import HadoopExamples.Platform.Java

set_option autoImplicit false

/-! # The mapper of the log job

`MapperFunction.getKVPair` cuts a log line into its first field and the month of its date field
and returns them in one static array that every call overwrites; `LogMonthMapper.map` writes a
record when the month is set. The array is state that outlives a call, so both take it and give it
back.

`Accepted` describes the lines that count, and with which month and first field, as a grammar.
`parse_eq_some_iff` shows that the two nested splits, the length guards and the shared array
decide exactly this grammar. The accesses to the pieces are also there as Java makes them, with the
exception they throw past the end; `map_grammar` says that the guards rule it out. -/

namespace HadoopExamples

/-! ## The code -/

/-- The static array `kv` of `MapperFunction`: `ip` is `kv[0]`, `month` is `kv[1]`, and `none` is
    the null reference. -/
structure KVPair where
  ip : Option JavaString
  month : Option JavaString

namespace MapperFunction

def months : List JavaString :=
  ["Jan".toList, "Feb".toList, "Mar".toList, "Apr".toList, "May".toList, "Jun".toList,
   "Jul".toList, "Aug".toList, "Sep".toList, "Oct".toList, "Nov".toList, "Dec".toList]

def getKVPair (kv : KVPair) (value : JavaString) : KVPair :=
  let kv := { kv with ip := none }
  let kv := { kv with month := none }
  let fields := value.splitChar ' '
  if _ : fields.length > 3 then
    let kv := { kv with ip := some fields[0] }
    -- the fourth field is `[dd/Mmm/yyyy:hh:mm:ss`
    let dtFields := JavaString.splitChar '/' fields[3]
    if _ : dtFields.length > 1 then
      let theMonth := dtFields[1]
      if months.contains theMonth then { kv with month := some theMonth } else kv
    else kv
  else kv

end MapperFunction

open MapperFunction

namespace LogMonthMapper

/-- The output key of a month and a first field. -/
def key (month ip : JavaString) : Text := ⟨month ++ '.' :: ip⟩

/-- One call of `map`: the array it leaves behind and the records it writes. -/
def map (kv : KVPair) (value : Text) : KVPair × List (Text × Text) :=
  let kv := getKVPair kv value.chars
  match kv.month with
  -- Java concatenates a null reference as the text `null`
  | some month => (kv, [(key month (kv.ip.getD "null".toList), ⟨month⟩)])
  | none => (kv, [])

/-- A map task that finds `kv` in the static array and works through its lines. -/
def run : KVPair → List Text → List (Text × Text)
  | _, [] => []
  | kv, line :: lines => (map kv line).2 ++ run (map kv line).1 lines

end LogMonthMapper

/-! ## The code with its exceptions -/

/-- What `a[i]` throws on a shorter array. -/
structure ArrayIndexOutOfBoundsException where
  index : ℕ

/-- `a[i]` -/
def arrayGet {α : Type} (a : List α) (i : ℕ) : Except ArrayIndexOutOfBoundsException α :=
  if _ : i < a.length then .ok a[i] else .error ⟨i⟩

theorem arrayGet_ok {α : Type} {a : List α} {i : ℕ} (h : i < a.length) :
    arrayGet a i = .ok a[i] := by
  unfold arrayGet
  rw [dif_pos h]

/-- `getKVPair`, with every access to an array one that can throw. -/
def MapperFunction.getKVPairOrThrow (kv : KVPair) (value : JavaString) :
    Except ArrayIndexOutOfBoundsException KVPair := do
  let kv := { kv with ip := none }
  let kv := { kv with month := none }
  let fields := value.splitChar ' '
  if fields.length > 3 then
    let kv := { kv with ip := some (← arrayGet fields 0) }
    let dtFields := JavaString.splitChar '/' (← arrayGet fields 3)
    if dtFields.length > 1 then
      let theMonth ← arrayGet dtFields 1
      if months.contains theMonth then return { kv with month := some theMonth } else return kv
    else return kv
  else return kv

/-- `map`, for a `getKVPair` that can throw. -/
def LogMonthMapper.mapOrThrow (kv : KVPair) (value : Text) :
    Except ArrayIndexOutOfBoundsException (KVPair × List (Text × Text)) := do
  let kv ← getKVPairOrThrow kv value.chars
  return match kv.month with
  | some month => (kv, [(key month (kv.ip.getD "null".toList), ⟨month⟩)])
  | none => (kv, [])

theorem ok_bind {α β : Type} (a : α) (f : α → Except ArrayIndexOutOfBoundsException β) :
    (Except.ok a >>= f) = f a := rfl

/-- The length guards keep every access inside its array. -/
theorem getKVPairOrThrow_ok (kv : KVPair) (value : JavaString) :
    getKVPairOrThrow kv value = .ok (getKVPair kv value) := by
  unfold getKVPairOrThrow getKVPair
  by_cases hfields : (value.splitChar ' ').length > 3
  · simp only [if_pos hfields, dif_pos hfields,
      arrayGet_ok (by omega : 0 < (value.splitChar ' ').length), arrayGet_ok hfields, ok_bind]
    by_cases hdate : (JavaString.splitChar '/' (value.splitChar ' ')[3]).length > 1
    · simp only [if_pos hdate, dif_pos hdate, arrayGet_ok hdate, ok_bind]
      split <;> rfl
    · simp only [if_neg hdate, dif_neg hdate]
      rfl
  · simp only [if_neg hfields, dif_neg hfields]
    rfl

theorem mapOrThrow_ok (kv : KVPair) (value : Text) :
    LogMonthMapper.mapOrThrow kv value = .ok (LogMonthMapper.map kv value) := by
  unfold LogMonthMapper.mapOrThrow LogMonthMapper.map
  rw [getKVPairOrThrow_ok]
  rfl

/-! ## The grammar of accepted lines -/

/-- `line` is `ip b c p/month` followed by the end of the line, a slash or a space, where `ip`,
    `b`, `c` and `p` contain no space, `p` contains no slash and `month` is a month name. -/
def Accepted (month ip line : JavaString) : Prop :=
  month ∈ months ∧ ' ' ∉ ip ∧ ∃ b c p rest,
    ' ' ∉ b ∧ ' ' ∉ c ∧ ' ' ∉ p ∧ '/' ∉ p ∧
    line = ip ++ ' ' :: (b ++ ' ' :: (c ++ ' ' :: (p ++ '/' :: (month ++ rest)))) ∧
    (rest = [] ∨ rest.head? = some '/' ∨ rest.head? = some ' ')

/-! ## The splits decide the grammar -/

theorem months_clean {m : JavaString} (hm : m ∈ months) :
    m.length = 3 ∧ ' ' ∉ m ∧ '/' ∉ m := by
  revert m
  decide

theorem months_ne_nil {m : JavaString} (hm : m ∈ months) : m ≠ [] := by
  intro h
  have := (months_clean hm).1
  simp [h] at this

/-- The month and the first field that a line is recorded with. -/
def parse (line : JavaString) : Option (JavaString × JavaString) :=
  let kv := getKVPair ⟨none, none⟩ line
  kv.month.map fun month => (month, kv.ip.getD "null".toList)

/-- `map` does not depend on what the static array holds when it is called. -/
theorem map_eq (kv : KVPair) (line : Text) :
    (LogMonthMapper.map kv line).2
      = (parse line.chars).toList.map fun mi => (LogMonthMapper.key mi.1 mi.2, ⟨mi.1⟩) := by
  have hkv : getKVPair kv line.chars = getKVPair ⟨none, none⟩ line.chars := rfl
  simp only [LogMonthMapper.map, parse, hkv]
  cases (getKVPair ⟨none, none⟩ line.chars).month <;> rfl

theorem run_eq (kv : KVPair) (lines : List Text) :
    LogMonthMapper.run kv lines
      = (lines.filterMap fun line => parse line.chars).map
          fun mi => (LogMonthMapper.key mi.1 mi.2, ⟨mi.1⟩) := by
  induction lines generalizing kv with
  | nil => rfl
  | cons line lines ih =>
    rw [LogMonthMapper.run, ih, map_eq, List.filterMap_cons]
    cases parse line.chars <;> rfl

theorem getElem?_pieces {sep : Char} {s w : JavaString} {i : ℕ}
    (h : (s.splitChar sep)[i]? = some w) : (s.splitOnP (· == sep))[i]? = some w := by
  obtain ⟨t, ht⟩ := Split.dropTrailing_prefix (s.splitOnP (· == sep))
  have hlt : i < (Split.dropTrailing (s.splitOnP (· == sep))).length :=
    (List.getElem?_eq_some_iff.1 h).1
  rw [← ht, List.getElem?_append_left hlt]
  exact h

theorem getKVPair_month {kv : KVPair} {value month : JavaString} :
    (getKVPair kv value).month = some month ↔
      month ∈ months ∧ ∃ date, (value.splitChar ' ')[3]? = some date ∧
        (JavaString.splitChar '/' date)[1]? = some month := by
  unfold getKVPair
  simp only [List.getElem?_eq_some_iff]
  split_ifs with hf hd hm
  · constructor
    · intro h
      rw [Option.some.inj h] at hm
      exact ⟨by simpa using hm, _, ⟨hf, rfl⟩, hd, Option.some.inj h⟩
    · rintro ⟨_, _, ⟨_, rfl⟩, _, rfl⟩
      rfl
  · simp only [false_iff]
    rintro ⟨hmem, _, ⟨_, rfl⟩, _, rfl⟩
    exact hm (by simpa using hmem)
  · simp only [false_iff]
    rintro ⟨_, _, ⟨_, rfl⟩, hlt, _⟩
    exact hd hlt
  · simp only [false_iff]
    rintro ⟨_, _, ⟨hlt, _⟩, _⟩
    exact hf hlt

theorem getKVPair_ip {kv : KVPair} {value date : JavaString}
    (h : (value.splitChar ' ')[3]? = some date) :
    (getKVPair kv value).ip = (value.splitChar ' ')[0]? := by
  obtain ⟨hf, _⟩ := List.getElem?_eq_some_iff.1 h
  rw [List.getElem?_eq_getElem (by omega)]
  unfold getKVPair
  rw [dif_pos hf]
  simp only
  split_ifs <;> rfl

/-- `parse` in terms of the pieces of the two splits, trailing empty pieces included. -/
theorem parse_eq_some_pieces {line month ip : JavaString} :
    parse line = some (month, ip) ↔
      month ∈ months ∧ ∃ b c date ws p ws',
        line.splitOnP (· == ' ') = ip :: b :: c :: date :: ws ∧
        date.splitOnP (· == '/') = p :: month :: ws' := by
  simp only [parse, Option.map_eq_some_iff, Prod.mk.injEq, getKVPair_month]
  constructor
  · rintro ⟨_, ⟨hm, date, hdate, hmonth⟩, rfl, hip⟩
    have hfirst : (line.splitChar ' ')[0]? = some ip := by
      obtain ⟨hlt, _⟩ := List.getElem?_eq_some_iff.1 hdate
      rw [getKVPair_ip hdate, List.getElem?_eq_getElem (by omega)] at hip
      rw [List.getElem?_eq_getElem (by omega), ← hip, Option.getD_some]
    have h0 := getElem?_pieces hfirst
    have h3 := getElem?_pieces hdate
    have h1 := getElem?_pieces hmonth
    refine ⟨hm, ?_⟩
    rcases hp : line.splitOnP (· == ' ') with _ | ⟨a, _ | ⟨b, _ | ⟨c, _ | ⟨d, ws⟩⟩⟩⟩ <;>
      rw [hp] at h0 h3 <;> simp at h0 h3
    rcases hq : date.splitOnP (· == '/') with _ | ⟨p, _ | ⟨m, ws'⟩⟩ <;>
      rw [hq] at h1 <;> simp at h1
    subst h0 h3 h1
    exact ⟨b, c, d, ws, p, ws', rfl, hq⟩
  · rintro ⟨hm, b, c, date, ws, p, ws', hp, hq⟩
    have hmonth : (JavaString.splitChar '/' date)[1]? = some month :=
      Split.getElem?_dropTrailing (by rw [hq]; rfl) (months_ne_nil hm)
    have hne : date ≠ [] := by
      rintro rfl
      exact absurd hq (by simp)
    have hdate : (line.splitChar ' ')[3]? = some date :=
      Split.getElem?_dropTrailing (by rw [hp]; rfl) hne
    refine ⟨month, ⟨hm, date, hdate, hmonth⟩, rfl, ?_⟩
    obtain ⟨hlt, _⟩ := List.getElem?_eq_some_iff.1 hdate
    have hpos : 0 < (line.splitChar ' ').length := by omega
    have h0 := getElem?_pieces (List.getElem?_eq_getElem hpos)
    rw [hp, List.getElem?_cons_zero, Option.some.injEq] at h0
    rw [getKVPair_ip hdate, List.getElem?_eq_getElem (by omega), ← h0, Option.getD_some]

/-- A field with a month in second place is `p`, a slash and the month, and after them nothing or
    a slash. -/
theorem splitOnP_slash {date p month : JavaString} (hm : month ∈ months) :
    (∃ ws, date.splitOnP (· == '/') = p :: month :: ws) ↔
      '/' ∉ p ∧ ∃ tail, date = p ++ '/' :: (month ++ tail) ∧
        (tail = [] ∨ tail.head? = some '/') := by
  simp only [Split.cut_next]
  simp only [Split.cut_first_elem]
  constructor
  · rintro ⟨ws, hp, t, rfl, _, ⟨rfl, _⟩ | ⟨u, rfl, _⟩⟩
    · exact ⟨hp, [], by simp, Or.inl rfl⟩
    · exact ⟨hp, '/' :: u, rfl, Or.inr rfl⟩
  · rintro ⟨hp, tail, rfl, rfl | htail⟩
    · exact ⟨[], hp, month, by simp, (months_clean hm).2.2, Or.inl ⟨rfl, rfl⟩⟩
    · obtain ⟨u, rfl⟩ := List.head?_eq_some_iff.1 htail
      exact ⟨_, hp, _, rfl, (months_clean hm).2.2, Or.inr ⟨u, rfl, rfl⟩⟩

/-- The same for the text that starts with the field, which a space or the end of the line ends. -/
theorem splitOnP_date {text p month : JavaString} (hm : month ∈ months) :
    (∃ date ws ws', text.splitOnP (· == ' ') = date :: ws ∧
        date.splitOnP (· == '/') = p :: month :: ws') ↔
      ' ' ∉ p ∧ '/' ∉ p ∧ ∃ rest, text = p ++ '/' :: (month ++ rest) ∧
        (rest = [] ∨ rest.head? = some '/' ∨ rest.head? = some ' ') := by
  have hmonth := (months_clean hm).2.1
  constructor
  · rintro ⟨date, ws, ws', htext, hdate⟩
    obtain ⟨hp, tail, rfl, htail⟩ := (splitOnP_slash hm).1 ⟨ws', hdate⟩
    obtain ⟨hfree, hcut⟩ := Split.cut_first_elem.1 htext
    refine ⟨fun h => hfree (List.mem_append_left _ h), hp, ?_⟩
    rcases hcut with ⟨rfl, _⟩ | ⟨t, rfl, _⟩
    · exact ⟨tail, rfl, by tauto⟩
    · refine ⟨tail ++ ' ' :: t, by simp, Or.inr ?_⟩
      rcases htail with rfl | htail
      · exact Or.inr rfl
      · obtain ⟨u, rfl⟩ := List.head?_eq_some_iff.1 htail
        exact Or.inl rfl
  · rintro ⟨hsp, hp, rest, rfl, rfl | hrest | hrest⟩
    · obtain ⟨ws', hdate⟩ := (splitOnP_slash hm).2 ⟨hp, [], rfl, Or.inl rfl⟩
      exact ⟨_, [], ws', Split.cut_first_elem.2 ⟨by simp [hsp, hmonth], Or.inl ⟨rfl, rfl⟩⟩, hdate⟩
    · -- the field goes on up to the first space after the second slash
      obtain ⟨t, rfl⟩ := List.head?_eq_some_iff.1 hrest
      obtain ⟨u, hu, hcut⟩ := Split.exists_first (· == ' ') t
      have hu' : ' ' ∉ u := fun h => absurd (hu ' ' h) (by simp)
      obtain ⟨ws', hdate⟩ := (splitOnP_slash hm).2 ⟨hp, '/' :: u, rfl, Or.inr rfl⟩
      refine ⟨p ++ '/' :: (month ++ '/' :: u), ?_⟩
      have hfree : ' ' ∉ p ++ '/' :: (month ++ '/' :: u) := by simp [hsp, hmonth, hu']
      rcases hcut with rfl | ⟨c, t', hc, rfl⟩
      · exact ⟨[], ws', Split.cut_first_elem.2 ⟨hfree, Or.inl ⟨rfl, rfl⟩⟩, hdate⟩
      · obtain rfl : c = ' ' := by simpa using hc
        exact ⟨_, ws', Split.cut_first_elem.2 ⟨hfree, Or.inr ⟨t', by simp, rfl⟩⟩, hdate⟩
    · obtain ⟨t, rfl⟩ := List.head?_eq_some_iff.1 hrest
      obtain ⟨ws', hdate⟩ := (splitOnP_slash hm).2 ⟨hp, [], rfl, Or.inl rfl⟩
      refine ⟨_, _, ws', Split.cut_first_elem.2 ⟨by simp [hsp, hmonth], Or.inr ⟨t, ?_, rfl⟩⟩,
        hdate⟩
      simp

/-- **The mapper's grammar.** A line is recorded with a month and a first field exactly when it is
    of the form that `Accepted` describes with them. -/
theorem parse_eq_some_iff {line month ip : JavaString} :
    parse line = some (month, ip) ↔ Accepted month ip line := by
  rw [parse_eq_some_pieces, Accepted]
  refine and_congr_right fun hm => ?_
  constructor
  · rintro ⟨b, c, date, ws, p, ws', hline, hdate⟩
    obtain ⟨hip, t₁, rfl, h₁⟩ := Split.cut_next.1 hline
    obtain ⟨hb, t₂, rfl, h₂⟩ := Split.cut_next.1 h₁
    obtain ⟨hc, t₃, rfl, h₃⟩ := Split.cut_next.1 h₂
    obtain ⟨hsp, hsl, rest, rfl, hrest⟩ := (splitOnP_date hm).1 ⟨date, ws, ws', h₃, hdate⟩
    exact ⟨hip, b, c, p, rest, hb, hc, hsp, hsl, rfl, hrest⟩
  · rintro ⟨hip, b, c, p, rest, hb, hc, hsp, hsl, rfl, hrest⟩
    obtain ⟨date, ws, ws', h₃, hdate⟩ := (splitOnP_date hm).2 ⟨hsp, hsl, rest, rfl, hrest⟩
    have h₂ := Split.cut_next.2 ⟨hc, _, rfl, h₃⟩
    have h₁ := Split.cut_next.2 ⟨hb, _, rfl, h₂⟩
    exact ⟨b, c, date, ws, p, ws', Split.cut_next.2 ⟨hip, _, rfl, h₁⟩, hdate⟩

instance (month ip line : JavaString) : Decidable (Accepted month ip line) :=
  decidable_of_iff _ parse_eq_some_iff

/-- Whatever the static array holds, `map` does not throw on a line and writes a record exactly if
    the grammar accepts the line: one record, of the month and the first field. -/
theorem map_grammar (kv : KVPair) (line : JavaString) :
    ∃ kv' records, LogMonthMapper.mapOrThrow kv ⟨line⟩ = .ok (kv', records) ∧
      (records ≠ [] ↔ ∃ month ip, Accepted month ip line) ∧
      ∀ month ip, Accepted month ip line →
        records = [(LogMonthMapper.key month ip, (⟨month⟩ : Text))] := by
  refine ⟨(LogMonthMapper.map kv ⟨line⟩).1, (LogMonthMapper.map kv ⟨line⟩).2,
    mapOrThrow_ok kv ⟨line⟩, ?_, ?_⟩
  · rw [map_eq]
    simp only [← parse_eq_some_iff]
    cases parse line with
    | none => simp
    | some mi => simpa using ⟨mi.1, mi.2, rfl⟩
  · intro month ip hacc
    rw [map_eq, parse_eq_some_iff.2 hacc]
    rfl

/-- The example line of the source -/
def catLine : JavaString :=
  "96.7.4.14 - - [24/Apr/2011:04:20:11 -0400] \"GET /cat.jpg HTTP/1.1\" 200 12433".toList

theorem map_grammar_catLine :
    Accepted "Apr".toList "96.7.4.14".toList catLine ∧
    ∃ kv' records, LogMonthMapper.mapOrThrow ⟨none, some "Jan".toList⟩ ⟨catLine⟩
        = .ok (kv', records) ∧ records ≠ [] ∧
      records = [(LogMonthMapper.key "Apr".toList "96.7.4.14".toList,
        (⟨"Apr".toList⟩ : Text))] := by
  have haccepted : Accepted "Apr".toList "96.7.4.14".toList catLine := by decide
  obtain ⟨kv', records, hrun, hne, hrecord⟩ := map_grammar ⟨none, some "Jan".toList⟩ catLine
  exact ⟨haccepted, kv', records, hrun, hne.2 ⟨_, _, haccepted⟩, hrecord _ _ haccepted⟩

end HadoopExamples
