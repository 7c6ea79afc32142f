import HadoopExamples.HBase.HotSpots

set_option autoImplicit false

/-! # The order of the hot-spot keys

The keys of `TransactionFactory.groovy` start with the time of the transaction, so that all inserts
go to the end of the table. But the pattern of the milliseconds has two letters: they get three
digits from 100 on, and a text of two digits may be behind one of three. `keys_in_time_order_iff`
says when this happens. -/

namespace HadoopExamples.HotSpots

/-- One call of `getNewTrans`: the clock reading and the random index that it gets. -/
structure Call where
  now : ℤ
  draw : Fin tickers.length

def Call.transaction (offset : ℤ) (call : Call) : Transaction :=
  getNewTrans offset call.now call.draw

def Call.row (offset : ℤ) (call : Call) : Bytes := (call.transaction offset).put.row

/-- The year of the call has four digits. -/
def Call.InYears (offset : ℤ) (call : Call) : Prop :=
  1000 ≤ (localDate offset call.now).year ∧ (localDate offset call.now).year ≤ 9999

instance (offset : ℤ) (call : Call) : Decidable (call.InYears offset) :=
  inferInstanceAs (Decidable (_ ∧ _))

/-- Both calls are in one second, the first before its 100th millisecond and the second after it,
    and the first two digits of the second's milliseconds are a smaller number than the first's. -/
def Straddles (offset : ℤ) (call call' : Call) : Prop :=
  (call.now + offset) / 1000 = (call'.now + offset) / 1000 ∧
  (call.now + offset) % 1000 < 100 ∧ 100 ≤ (call'.now + offset) % 1000 ∧
  (call'.now + offset) % 1000 / 10 < (call.now + offset) % 1000

instance (offset : ℤ) (call call' : Call) : Decidable (Straddles offset call call') :=
  inferInstanceAs (Decidable (_ ∧ _))

/-! ## The fields of a key -/

/-- A date up to the blank behind it. -/
def dateText (d : Date) : JavaString :=
  Decimal.zeroPad 4 d.year.toNat ++
  '/' :: (Decimal.zeroPad 2 d.month ++
  '/' :: (Decimal.zeroPad 2 d.dayOfMonth ++ [' ']))

/-- Hours, minutes and seconds up to the colon behind them. -/
def secondsText (seconds : ℕ) : JavaString :=
  Decimal.zeroPad 2 (seconds / 3600) ++
  ':' :: (Decimal.zeroPad 2 (seconds / 60 % 60) ++
  ':' :: (Decimal.zeroPad 2 (seconds % 60) ++ [':']))

theorem format_eq {offset now : ℤ} (hyear : 0 < (localDate offset now).year) :
    format offset now = dateText (localDate offset now) ++
      (secondsText (((now + offset) % 86400000).toNat / 1000) ++
        Decimal.zeroPad 2 (((now + offset) % 86400000).toNat % 1000)) := by
  have hhours (n : ℕ) : n / 1000 / 3600 = n / 3600000 := Nat.div_div_eq_div_mul n 1000 3600
  have hminutes (n : ℕ) : n / 1000 / 60 = n / 60000 := Nat.div_div_eq_div_mul n 1000 60
  unfold format dateText secondsText
  simp only [if_pos hyear, hhours, hminutes, List.append_assoc, List.cons_append, List.nil_append]

theorem localDate_twoDigits (offset now : ℤ) : (localDate offset now).TwoDigits :=
  Calendar.civilDate_twoDigits _

/-- Equal characters in front do not matter. -/
theorem cons_lt_cons (c : Char) (r r' : JavaString) : c :: r < c :: r' ↔ r < r' := by
  rw [List.cons_lt_cons_iff]
  simp

theorem dateText_append_lt_iff {d d' : Date} (hd : d.TwoDigits) (hd' : d'.TwoDigits)
    (hyear : 0 ≤ d.year ∧ d.year ≤ 9999) (hyear' : 0 ≤ d'.year ∧ d'.year ≤ 9999)
    (r r' : JavaString) :
    dateText d ++ r < dateText d' ++ r' ↔ d.Before d' ∨ (d = d' ∧ r < r') := by
  obtain ⟨year, month, dayOfMonth⟩ := d
  obtain ⟨year', month', dayOfMonth'⟩ := d'
  obtain ⟨hmonth, hday⟩ := hd
  obtain ⟨hmonth', hday'⟩ := hd'
  simp only at hyear hyear' hmonth hday hmonth' hday'
  have hlt : year.toNat < year'.toNat ↔ year < year' := by omega
  have heq : year.toNat = year'.toNat ↔ year = year' := by omega
  unfold dateText Date.Before
  simp only [List.append_assoc, List.cons_append, List.nil_append, Date.mk.injEq]
  rw [Decimal.zeroPad_append_lt_iff (by omega) (by omega) (by omega), cons_lt_cons,
    Decimal.zeroPad_append_lt_iff (by omega) hmonth hmonth', cons_lt_cons,
    Decimal.zeroPad_append_lt_iff (by omega) hday hday', cons_lt_cons, hlt, heq]
  simp only [and_or_left, or_assoc, and_assoc]

theorem secondsText_append_lt_iff {s s' : ℕ} (hs : s < 86400) (hs' : s' < 86400)
    (r r' : JavaString) :
    secondsText s ++ r < secondsText s' ++ r' ↔ s < s' ∨ (s = s' ∧ r < r') := by
  unfold secondsText
  simp only [List.append_assoc, List.cons_append, List.nil_append]
  rw [Decimal.zeroPad_append_lt_iff (by omega) (by omega) (by omega), cons_lt_cons,
    Decimal.zeroPad_append_lt_iff (by omega) (by omega) (by omega), cons_lt_cons,
    Decimal.zeroPad_append_lt_iff (by omega) (by omega) (by omega), cons_lt_cons]
  by_cases hr : r < r'
  · simp only [hr, and_true]
    omega
  · simp only [hr, and_false, or_false]
    omega

/-- Two readings of one second. The blank that ends two digits is before any digit. -/
theorem millis_append_lt_iff {m m' : ℕ} (h : m < m') (hm' : m' < 1000) (r r' : JavaString) :
    Decimal.zeroPad 2 m ++ ' ' :: r < Decimal.zeroPad 2 m' ++ ' ' :: r' ↔
      ¬ (m < 100 ∧ 100 ≤ m' ∧ m' / 10 < m) := by
  rcases Nat.lt_or_ge m' 100 with htwo' | hthree'
  · rw [Decimal.zeroPad_append_lt_iff (by omega) (by omega) (by omega)]
    omega
  · rw [Decimal.zeroPad_of_le (n := m') hthree']
    rcases Nat.lt_or_ge m 100 with htwo | hthree
    · have hblank : ' ' :: r < (m' % 10).digitChar :: ' ' :: r' := by
        refine List.cons_lt_cons_iff.2 (Or.inl ?_)
        show ' '.toNat < (m' % 10).digitChar.toNat
        rw [Nat.toNat_digitChar_of_lt_ten (by omega)]
        exact Nat.lt_add_right _ (by decide)
      rw [Decimal.zeroPad_succ 1 m', List.append_assoc, List.singleton_append,
        Decimal.zeroPad_append_lt_iff (by omega) (by omega) (by omega)]
      simp only [hblank, and_true]
      omega
    · rw [Decimal.zeroPad_of_le (n := m) hthree,
        Decimal.zeroPad_append_lt_iff (by omega) (by omega) (by omega)]
      omega

/-! ## The order of the keys -/

theorem isAscii_key (offset : ℤ) (call : Call) :
    ∀ c ∈ (call.transaction offset).key, c.toNat < 128 := by
  have hpad : ∀ {width n}, ∀ c ∈ Decimal.zeroPad width n, c.toNat < 128 := by
    intro width n c hc
    have hdigit := (Char.isDigit_iff_toNat.1 (Decimal.isDigit_of_mem_zeroPad hc)).2
    exact hdigit.trans_lt (by decide)
  have hall : ∀ ticker ∈ tickers, (ticker.symbol.all fun c => c.toNat < 128) = true := by decide
  have hsymbol : ∀ c ∈ (tickers.get call.draw).symbol, c.toNat < 128 := fun c hc =>
    of_decide_eq_true (List.all_eq_true.1 (hall _ (List.get_mem _ _)) c hc)
  show ∀ c ∈ format offset call.now ++ ' ' :: (tickers.get call.draw).symbol, c.toNat < 128
  unfold format
  simp only [List.forall_mem_append, List.forall_mem_cons]
  exact ⟨⟨hpad, by decide, hpad, by decide, hpad, by decide, hpad, by decide, hpad, by decide, hpad,
    by decide, hpad⟩, by decide, hsymbol⟩

/-- The date decides, then the second, then the milliseconds. -/
theorem row_lt_row_iff {offset : ℤ} {call call' : Call} (hyears : call.InYears offset)
    (hyears' : call'.InYears offset) :
    let millis := ((call.now + offset) % 86400000).toNat
    let millis' := ((call'.now + offset) % 86400000).toNat
    call.row offset < call'.row offset ↔
      (localDate offset call.now).Before (localDate offset call'.now) ∨
      (localDate offset call.now = localDate offset call'.now ∧
        (millis / 1000 < millis' / 1000 ∨ (millis / 1000 = millis' / 1000 ∧
          Decimal.zeroPad 2 (millis % 1000) ++ ' ' :: (tickers.get call.draw).symbol
            < Decimal.zeroPad 2 (millis' % 1000) ++ ' ' :: (tickers.get call'.draw).symbol))) := by
  intro millis millis'
  have hmillis : millis < 86400000 ∧ millis' < 86400000 := by omega
  obtain ⟨hyear₁, hyear₂⟩ := hyears
  obtain ⟨hyear₁', hyear₂'⟩ := hyears'
  have hkeys : call.row offset < call'.row offset ↔
      (call.transaction offset).key < (call'.transaction offset).key :=
    Bytes.ofString_lt_iff (isAscii_key offset call) (isAscii_key offset call')
  rw [hkeys]
  show format offset call.now ++ ' ' :: (tickers.get call.draw).symbol
    < format offset call'.now ++ ' ' :: (tickers.get call'.draw).symbol ↔ _
  rw [format_eq (by omega), format_eq (by omega)]
  simp only [List.append_assoc]
  rw [dateText_append_lt_iff (localDate_twoDigits _ _) (localDate_twoDigits _ _) (by omega)
    (by omega), secondsText_append_lt_iff (by omega) (by omega)]

/-- Two calls one after the other. -/
theorem row_lt_iff {offset : ℤ} {call call' : Call} (hclock : call.now < call'.now)
    (hyears : call.InYears offset) (hyears' : call'.InYears offset) :
    call.row offset < call'.row offset ↔ ¬ Straddles offset call call' := by
  have hrow := row_lt_row_iff hyears hyears'
  simp only at hrow
  rw [hrow]
  unfold Straddles
  rcases (by omega : (call.now + offset) / 86400000 < (call'.now + offset) / 86400000 ∨
      (call.now + offset) / 86400000 = (call'.now + offset) / 86400000) with hday | hday
  · exact iff_of_true (Or.inl (Calendar.civilDate_lt hday)) (by omega)
  · have hdate : localDate offset call.now = localDate offset call'.now := by
      unfold localDate
      rw [hday]
    simp only [hdate, Date.Before.irrefl, false_or, true_and]
    by_cases hsecond : (call.now + offset) / 1000 = (call'.now + offset) / 1000
    · rw [millis_append_lt_iff (by omega) (by omega)]
      omega
    · exact iff_of_true (Or.inl (by omega)) (by omega)

/-- For two calls one after the other in years of four digits, whatever tickers they draw, the key of
    the first is before the key of the second exactly if they do not straddle the 100th millisecond
    of a second; and a run of inserts on a clock that ticks appends all its rows exactly if no two
    of its calls do. -/
theorem keys_in_time_order_iff (offset : ℤ) :
    (∀ call call' : Call, call.now < call'.now → call.InYears offset → call'.InYears offset →
      (call.row offset < call'.row offset ↔ ¬ Straddles offset call call')) ∧
    ∀ calls : List Call, calls.Pairwise (·.now < ·.now) → (∀ call ∈ calls, call.InYears offset) →
      (HTable.AppendsRows (calls.map fun call => (call.transaction offset).put) ↔
        calls.Pairwise fun call call' => ¬ Straddles offset call call') := by
  refine ⟨fun call call' hclock hyears hyears' => row_lt_iff hclock hyears hyears', ?_⟩
  intro calls hclock hyears
  rw [HTable.appendsRows_iff, List.map_map, List.pairwise_map]
  have hpairs : ∀ {call call'}, call ∈ calls → call' ∈ calls → call.now < call'.now →
      (call.row offset < call'.row offset ↔ ¬ Straddles offset call call') :=
    fun hcall hcall' hnow => row_lt_iff hnow (hyears _ hcall) (hyears _ hcall')
  refine ⟨fun hrows => ?_, fun hstraddle => ?_⟩
  · refine (hclock.and hrows).imp_of_mem ?_
    intro call call' hcall hcall' hboth
    exact (hpairs hcall hcall' hboth.1).1 hboth.2
  · refine (hclock.and hstraddle).imp_of_mem ?_
    intro call call' hcall hcall' hboth
    exact (hpairs hcall hcall' hboth.1).2 hboth.2

/-- The first milliseconds of a day, and the first two times with three digits. -/
theorem keys_in_time_order_iff_first :
    (⟨5, ⟨0, by decide⟩⟩ : Call).row 0 < (⟨110, ⟨1, by decide⟩⟩ : Call).row 0 ∧
    HTable.AppendsRows ([⟨9, ⟨0, by decide⟩⟩, ⟨100, ⟨1, by decide⟩⟩, ⟨101, ⟨2, by decide⟩⟩].map
      fun call : Call => (call.transaction 0).put) :=
  ⟨((keys_in_time_order_iff 0).1 _ _ (by decide) (by decide) (by decide)).2 (by decide),
    ((keys_in_time_order_iff 0).2 _ (by decide) (by decide)).2 (by decide)⟩

/-- The 99th and the 100th millisecond of one second, in 1970. -/
theorem keys_out_of_order : ∃ call call' : Call, call.now < call'.now ∧ call.InYears 0 ∧
    call'.InYears 0 ∧ call'.row 0 < call.row 0 ∧ ¬ call.row 0 < call'.row 0 ∧
    ¬ HTable.AppendsRows ([call, call'].map fun call => (call.transaction 0).put) := by
  refine ⟨⟨99, ⟨0, by decide⟩⟩, ⟨100, ⟨0, by decide⟩⟩, by decide, by decide, by decide, ?_, ?_, ?_⟩
  · decide +kernel
  · decide +kernel
  · rw [HTable.appendsRows_iff]
    decide +kernel

end HadoopExamples.HotSpots
