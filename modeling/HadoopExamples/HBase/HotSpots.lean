import HadoopExamples.Library.Calendar
import HadoopExamples.Library.Decimal
import HadoopExamples.Platform.Groovy
import HadoopExamples.Platform.HBase

set_option autoImplicit false

/-! # The hot-spot importer

`TransactionImporter.groovy` writes random transactions under keys that start with the time. It
counts them with an inclusive range, so one more is imported than requested and reported, and the
table holds the requested number of rows only if a transaction was overwritten
(`importTransactions_never_exact`). -/

namespace HadoopExamples.HotSpots

/-! ## TransactionFactory -/

structure Ticker where
  symbol : JavaString
  price : JavaInt

def tickers : List Ticker :=
  [⟨"IBM".toList, 100⟩, ⟨"AAPL".toList, 200⟩, ⟨"MSFT".toList, 300⟩, ⟨"INTC".toList, 50⟩,
   ⟨"BWLD".toList, 200⟩]

structure Transaction where
  key : JavaString
  dt : JavaString
  price : JavaInt
  symbol : JavaString

/-- The date in a zone that is always `offset` milliseconds ahead of UTC. -/
def localDate (offset now : ℤ) : Date := Calendar.civilDate ((now + offset) / 86400000)

/-- `format('yyyy/MM/dd HH:mm:ss:SS')` in such a zone. Years before year 1 are counted backwards, and
    `SS` are the milliseconds, with at least two digits. -/
def format (offset now : ℤ) : JavaString :=
  let date := localDate offset now
  let yearOfEra := if 0 < date.year then date.year else 1 - date.year
  let millis := ((now + offset) % 86400000).toNat
  Decimal.zeroPad 4 yearOfEra.toNat ++
  '/' :: (Decimal.zeroPad 2 date.month ++
  '/' :: (Decimal.zeroPad 2 date.dayOfMonth ++
  ' ' :: (Decimal.zeroPad 2 (millis / 3600000) ++
  ':' :: (Decimal.zeroPad 2 (millis / 60000 % 60) ++
  ':' :: (Decimal.zeroPad 2 (millis / 1000 % 60) ++
  ':' :: Decimal.zeroPad 2 (millis % 1000))))))

/-- One call, with the clock reading and the random index that it gets. -/
def getNewTrans (offset now : ℤ) (draw : Fin tickers.length) : Transaction :=
  let ticker := tickers.get draw
  { key := format offset now ++ ' ' :: ticker.symbol
    dt := Decimal.ofInt now
    price := ticker.price
    symbol := ticker.symbol }

/-! ## TransactionImporter -/

/-- The put of a transaction: the columns `dt`, `symbol` and `price` of the family `info`. -/
def Transaction.put (t : Transaction) : Put where
  row := Bytes.ofString t.key
  cells :=
    [(⟨Bytes.ofString "info".toList, Bytes.ofString "dt".toList⟩, Bytes.ofString t.dt),
     (⟨Bytes.ofString "info".toList, Bytes.ofString "symbol".toList⟩, Bytes.ofString t.symbol),
     (⟨Bytes.ofString "info".toList, Bytes.ofString "price".toList⟩, Bytes.ofInt t.price)]

/-- A finished import: the transactions in their order and the number of rows it reports. -/
structure Import where
  transactions : List Transaction
  reported : ℤ

/-- The import loop; `clock` and `draws` are the readings and indices that its calls get. -/
def importTransactions (offset numRows : ℤ) (clock : ℕ → ℤ) (draws : ℕ → Fin tickers.length) :
    Import where
  transactions := (Groovy.range 0 numRows).mapIdx fun call _ =>
    getNewTrans offset (clock call) (draws call)
  reported := numRows

def Import.puts (run : Import) : List Put := run.transactions.map Transaction.put

/-- The table after the import; the last flush sends what is still in the write buffer. -/
def Import.table (run : Import) : HTable := HTable.putAll run.puts

/-- The table has one row for each of the requested transactions, and these are the imported and
    the reported ones. -/
structure Import.Exact (run : Import) (numRows : ℕ) : Prop where
  rows : run.table.keys.length = numRows
  created : HTable.CreatesRows run.puts
  imported : run.transactions.length = numRows
  reported : run.reported = numRows

/-! ## The number of rows -/

theorem length_transactions (offset : ℤ) (numRows : ℕ) (clock : ℕ → ℤ)
    (draws : ℕ → Fin tickers.length) :
    (importTransactions offset numRows clock draws).transactions.length = numRows + 1 := by
  unfold importTransactions
  rw [List.length_mapIdx, Groovy.length_range_zero]

/-- Whatever the clock and the draws: one transaction too many is imported; the rows are as many as
    the different keys; and they are as many as requested only if a transaction was overwritten. So
    no import is exact. -/
theorem importTransactions_never_exact (offset : ℤ) (numRows : ℕ) (clock : ℕ → ℤ)
    (draws : ℕ → Fin tickers.length) :
    let run := importTransactions offset numRows clock draws
    run.transactions.length = numRows + 1 ∧
    run.table.keys.length = (run.transactions.map Transaction.key).dedup.length ∧
    (run.table.keys.length = numRows → ¬ HTable.CreatesRows run.puts) ∧
    ¬ run.Exact numRows := by
  intro run
  have hlength := length_transactions offset numRows clock draws
  have hrows : run.puts.map Put.row
      = (run.transactions.map Transaction.key).map Bytes.ofString := by
    unfold Import.puts
    simp only [List.map_map]
    rfl
  have hoverwritten : run.table.keys.length = numRows → ¬ HTable.CreatesRows run.puts := by
    intro hkeys hcreates
    have hputs := (HTable.length_keys_putAll_eq_iff run.puts).2 hcreates
    have htransactions : run.puts.length = numRows + 1 := by
      rw [← hlength]
      exact List.length_map _
    have htable : (HTable.putAll run.puts).keys.length = numRows := hkeys
    omega
  refine ⟨hlength, ?_, hoverwritten, ?_⟩
  · unfold Import.table
    rw [HTable.length_keys_putAll, hrows,
      List.dedup_map_of_injective Bytes.ofString_injective, List.length_map]
  · intro hexact
    exact hoverwritten hexact.rows hexact.created

/-- One requested row on a clock that ticks: two rows. -/
theorem importTransactions_one_row :
    ∃ (clock : ℕ → ℤ) (draws : ℕ → Fin tickers.length), (∀ i j, i ≤ j → clock i ≤ clock j) ∧
      (importTransactions 0 1 clock draws).table.keys.length = 2 ∧
      (importTransactions 0 1 clock draws).reported = 1 ∧
      ¬ (importTransactions 0 1 clock draws).Exact 1 := by
  have hrows : (importTransactions 0 1 (fun call => 1000 * call)
      fun _ => ⟨0, by decide⟩).table.keys.length = 2 := by decide +kernel
  refine ⟨fun call => 1000 * call, fun _ => ⟨0, by decide⟩, ?_, hrows, rfl, ?_⟩
  · intro i j hij
    show (1000 * i : ℤ) ≤ 1000 * j
    omega
  intro hexact
  rw [hexact.rows] at hrows
  exact absurd hrows (by decide)

end HadoopExamples.HotSpots
