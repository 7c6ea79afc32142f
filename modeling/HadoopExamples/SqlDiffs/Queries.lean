import HadoopExamples.Library.Sql
import Mathlib.Data.Prod.Lex
import Mathlib.Logic.Embedding.Basic

set_option autoImplicit false

/-! # Five ways to ask for the names in Colorado

The queries under `sql-diffs` list the distinct names of the accounts in Colorado by last and first
name, with `GROUP BY` or `DISTINCT` and with the sort inside or outside a subquery. An engine may
group in any order and break ties as it likes, so a query is a relation between the table and a
result. `queries_agree` says that nothing of this choice is left in the results, save the order in
which the third one returns its rows. -/

namespace HadoopExamples.SqlDiffs

/-- A row of `accts`, with the columns that are asked for; `none` is NULL. -/
structure Account where
  firstName : Option String
  lastName : Option String
  state : Option String

/-- The columns of `SELECT first_name, last_name`. -/
@[ext] structure FullName where
  firstName : Option String
  lastName : Option String
deriving DecidableEq

/-- The columns of the subquery `sq`. -/
structure NamedRow where
  name : Option String
  firstName : Option String
  lastName : Option String

section Queries

variable {κ : Type} [LinearOrder κ]

/- `concat_ws` is any function. `ORDER BY` compares nullable strings by their place in a linear
   order, which keeps different ones apart. -/
variable (concatWs : String → List (Option String) → Option String) (rank : Option String ↪ κ)

/-- `ORDER BY last_name, first_name` -/
def byLastAndFirst (lastName firstName : Option String) : κ ×ₗ κ :=
  toLex (rank lastName, rank firstName)

/-- `WHERE state = 'CO'` -/
def whereColorado (accts : List Account) : List Account :=
  Sql.filterWhere (fun acct => Sql.eq acct.state (some "CO")) accts

def Account.fullName (acct : Account) : FullName := ⟨acct.firstName, acct.lastName⟩

/-- `concat_ws(' ', first_name, last_name)` -/
def FullName.name (row : FullName) : Option String := concatWs " " [row.firstName, row.lastName]

/-- The name and the columns it is made of. -/
def FullName.named (row : FullName) : NamedRow := ⟨row.name concatWs, row.firstName, row.lastName⟩

/-- `SELECT concat_ws(..) .. GROUP BY first_name, last_name ORDER BY last_name, first_name` -/
def Query1 (accts : List Account) (result : List (Option String)) : Prop :=
  ∃ groups sorted, Sql.Distinct ((whereColorado accts).map Account.fullName) groups ∧
    Sql.OrderedBy (fun row => byLastAndFirst rank row.lastName row.firstName) groups sorted ∧
    result = sorted.map (FullName.name concatWs)

/-- `SELECT first_name, last_name .. GROUP BY first_name, last_name` -/
def UnnecessarySubquery (accts : List Account) (rows : List FullName) : Prop :=
  Sql.Distinct ((whereColorado accts).map Account.fullName) rows

def Query2 (accts : List Account) (result : List (Option String)) : Prop :=
  ∃ unnecessarySubquery sorted, UnnecessarySubquery accts unnecessarySubquery ∧
    Sql.OrderedBy (fun row => byLastAndFirst rank row.lastName row.firstName) unnecessarySubquery
      sorted ∧
    result = sorted.map (FullName.name concatWs)

/-- `SELECT DISTINCT concat_ws(..) AS name, first_name, last_name ..` -/
def SelectDistinct (accts : List Account) (rows : List NamedRow) : Prop :=
  Sql.Distinct ((whereColorado accts).map fun acct => acct.fullName.named concatWs) rows

/-- The sort is inside the subquery, and the outer query returns its rows in any order. -/
def Query3 (accts : List Account) (result : List (Option String)) : Prop :=
  ∃ distinct sorted, SelectDistinct concatWs accts distinct ∧
    Sql.OrderedBy (fun row => byLastAndFirst rank row.lastName row.firstName) distinct sorted ∧
    result.Perm (sorted.map NamedRow.name)

def Query4 (accts : List Account) (result : List (Option String)) : Prop :=
  ∃ sq sorted, SelectDistinct concatWs accts sq ∧
    Sql.OrderedBy (fun row => byLastAndFirst rank row.lastName row.firstName) sq sorted ∧
    result = sorted.map NamedRow.name

/-- `Query4` with the columns `name`, `last_name` and `first_name`. -/
def Query5 (accts : List Account)
    (result : List (Option String × Option String × Option String)) : Prop :=
  ∃ sq sorted, SelectDistinct concatWs accts sq ∧
    Sql.OrderedBy (fun row => byLastAndFirst rank row.lastName row.firstName) sq sorted ∧
    result = sorted.map fun row => (row.name, row.lastName, row.firstName)

/-! ## The rows they return -/

/-- The distinct names in Colorado, sorted. -/
def fullNames (accts : List Account) : List FullName :=
  KeySort.sortBy (fun row => byLastAndFirst rank row.lastName row.firstName)
    ((whereColorado accts).map Account.fullName).dedup

/-- The names that these rows give. -/
def names (accts : List Account) : List (Option String) :=
  (fullNames rank accts).map (FullName.name concatWs)

end Queries

variable {κ : Type} {rank : Option String ↪ κ}
  {concatWs : String → List (Option String) → Option String} {accts : List Account}

theorem byLastAndFirst_eq_iff {last first last' first' : Option String} :
    byLastAndFirst rank last first = byLastAndFirst rank last' first' ↔
      last = last' ∧ first = first' := by
  unfold byLastAndFirst
  rw [toLex_inj, Prod.mk.injEq, rank.injective.eq_iff, rank.injective.eq_iff]

theorem named_injective : Function.Injective (FullName.named concatWs) := by
  intro row row' h
  obtain ⟨_, hfirst, hlast⟩ := NamedRow.mk.inj h
  exact FullName.ext hfirst hlast

variable [LinearOrder κ]

theorem fullNames_ordered (rank : Option String ↪ κ) (accts : List Account) :
    Sql.OrderedBy (fun row => byLastAndFirst rank row.lastName row.firstName)
      ((whereColorado accts).map Account.fullName).dedup (fullNames rank accts) :=
  Sql.orderedBy_sortBy _ _

/-- Grouping and sorting by the two columns fixes the rows. -/
theorem sorted_groups_eq {groups sorted : List FullName}
    (hgroups : Sql.Distinct ((whereColorado accts).map Account.fullName) groups)
    (hsorted : Sql.OrderedBy (fun row => byLastAndFirst rank row.lastName row.firstName) groups
      sorted) : sorted = fullNames rank accts := by
  refine Sql.OrderedBy.unique ?_ hsorted (fullNames_ordered rank accts)
    (hgroups.perm (Sql.distinct_dedup _))
  intro row _ row' _ htie
  obtain ⟨hlast, hfirst⟩ := byLastAndFirst_eq_iff.1 htie
  exact FullName.ext hfirst hlast

theorem selectDistinct_named (concatWs : String → List (Option String) → Option String)
    (accts : List Account) :
    SelectDistinct concatWs accts
      (((whereColorado accts).map Account.fullName).dedup.map (FullName.named concatWs)) := by
  have hdistinct := (Sql.distinct_dedup ((whereColorado accts).map Account.fullName)).map
    (named_injective : Function.Injective (FullName.named concatWs))
  rw [List.map_map] at hdistinct
  exact hdistinct

theorem named_ordered (concatWs : String → List (Option String) → Option String)
    (rank : Option String ↪ κ) (accts : List Account) :
    Sql.OrderedBy (fun row => byLastAndFirst rank row.lastName row.firstName)
      (((whereColorado accts).map Account.fullName).dedup.map (FullName.named concatWs))
      ((fullNames rank accts).map (FullName.named concatWs)) :=
  Sql.OrderedBy.map (f := FullName.named concatWs) (fun _ => rfl) (fullNames_ordered rank accts)

/-- The derived column adds no rows and breaks no ties: it is a function of the other two. -/
theorem sorted_distinct_eq {distinct sorted : List NamedRow}
    (hdistinct : SelectDistinct concatWs accts distinct)
    (hsorted : Sql.OrderedBy (fun row => byLastAndFirst rank row.lastName row.firstName) distinct
      sorted) : sorted = (fullNames rank accts).map (FullName.named concatWs) := by
  refine Sql.OrderedBy.unique ?_ hsorted (named_ordered concatWs rank accts)
    (hdistinct.perm (selectDistinct_named concatWs accts))
  intro row hrow row' hrow' htie
  obtain ⟨acct, _, rfl⟩ := List.mem_map.1 ((hdistinct.mem_iff row).1 hrow)
  obtain ⟨acct', _, rfl⟩ := List.mem_map.1 ((hdistinct.mem_iff row').1 hrow')
  obtain ⟨hlast, hfirst⟩ := byLastAndFirst_eq_iff.1 htie
  have hfull : acct.fullName = acct'.fullName := FullName.ext hfirst hlast
  rw [hfull]

theorem map_name_named (concatWs : String → List (Option String) → Option String)
    (rows : List FullName) :
    (rows.map (FullName.named concatWs)).map NamedRow.name = rows.map (FullName.name concatWs) := by
  rw [List.map_map]
  rfl

/-! ## The queries, one by one -/

theorem query1_iff {result : List (Option String)} :
    Query1 concatWs rank accts result ↔ result = names concatWs rank accts := by
  constructor
  · intro ⟨groups, sorted, hgroups, hsorted, hresult⟩
    rw [hresult, sorted_groups_eq hgroups hsorted]
    rfl
  · intro hresult
    exact ⟨_, _, Sql.distinct_dedup _, fullNames_ordered rank accts, hresult⟩

theorem query2_iff {result : List (Option String)} :
    Query2 concatWs rank accts result ↔ result = names concatWs rank accts := by
  constructor
  · intro ⟨subquery, sorted, hsubquery, hsorted, hresult⟩
    rw [hresult, sorted_groups_eq hsubquery hsorted]
    rfl
  · intro hresult
    exact ⟨_, _, Sql.distinct_dedup _, fullNames_ordered rank accts, hresult⟩

/-- What any query gets that selects from the sorted rows of the subquery with `DISTINCT`. -/
theorem exists_sorted_distinct_iff {P : List NamedRow → Prop} :
    (∃ distinct sorted, SelectDistinct concatWs accts distinct ∧
      Sql.OrderedBy (fun row => byLastAndFirst rank row.lastName row.firstName) distinct sorted ∧
      P sorted) ↔ P ((fullNames rank accts).map (FullName.named concatWs)) := by
  constructor
  · intro ⟨distinct, sorted, hdistinct, hsorted, hP⟩
    rwa [sorted_distinct_eq hdistinct hsorted] at hP
  · intro hP
    exact ⟨_, _, selectDistinct_named concatWs accts, named_ordered concatWs rank accts, hP⟩

theorem query3_iff {result : List (Option String)} :
    Query3 concatWs rank accts result ↔ result.Perm (names concatWs rank accts) := by
  unfold Query3
  rw [exists_sorted_distinct_iff, map_name_named]
  rfl

theorem query4_iff {result : List (Option String)} :
    Query4 concatWs rank accts result ↔ result = names concatWs rank accts := by
  unfold Query4
  rw [exists_sorted_distinct_iff, map_name_named]
  rfl

theorem query5_iff {result : List (Option String × Option String × Option String)} :
    Query5 concatWs rank accts result ↔
      result = (fullNames rank accts).map fun row =>
        (row.name concatWs, row.lastName, row.firstName) := by
  unfold Query5
  rw [exists_sorted_distinct_iff, List.map_map]
  rfl

/-- Whatever the engine does, four of the queries return one and the same list of names, and the
    third one returns these names in some order. -/
theorem queries_agree (concatWs : String → List (Option String) → Option String)
    (rank : Option String ↪ κ) (accts : List Account) :
    ∃ names : List (Option String),
      (∀ result, Query1 concatWs rank accts result ↔ result = names) ∧
      (∀ result, Query2 concatWs rank accts result ↔ result = names) ∧
      (∀ result, Query3 concatWs rank accts result ↔ result.Perm names) ∧
      (∀ result, Query4 concatWs rank accts result ↔ result = names) ∧
      (∃ rows, Query5 concatWs rank accts rows) ∧
      ∀ rows, Query5 concatWs rank accts rows → rows.map Prod.fst = names := by
  refine ⟨names concatWs rank accts, fun _ => query1_iff, fun _ => query2_iff,
    fun _ => query3_iff, fun _ => query4_iff, ⟨_, query5_iff.2 rfl⟩, ?_⟩
  intro rows hrows
  rw [query5_iff.1 hrows, List.map_map]
  rfl

end HadoopExamples.SqlDiffs
