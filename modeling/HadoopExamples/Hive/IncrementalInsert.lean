import HadoopExamples.Library.Sql
import HadoopExamples.Library.Transition
import Mathlib.Data.List.Nodup

set_option autoImplicit false

/-! # Inserting only new rows into a join table

`join_table.sql` joins employees with nicknames and inserts the rows that `join_table` does not
hold yet, found with a left outer join on the table that is being written. `load_and_run.sql` loads
more rows and runs it again. Here a run is any list of loads and executions.

Everything rests on `selectNew_eq`: the statement inserts the rows of the full join, except those
that are free of NULL and stand in `join_table` already. Inside one execution it looks neither for
repetitions nor, because an equality with NULL is not true, for rows with a NULL. -/

namespace HadoopExamples.IncrementalInsert

open Sql

/-! ## The code -/

structure Employee where
  name : Option String
  title : Option String
deriving DecidableEq

structure Nickname where
  name : Option String
  nickname : Option String
deriving DecidableEq

structure JoinRow where
  name : Option String
  title : Option String
  nickname : Option String
deriving DecidableEq

structure Database where
  employees : List Employee
  nicknames : List Nickname
  joinTable : List JoinRow

/-- `SELECT e.name, e.title, n.nickname` -/
def project (p : Employee × Nickname) : JoinRow := ⟨p.1.name, p.1.title, p.2.nickname⟩

/-- `employees e JOIN nicknames n ON e.name = n.name` -/
def joined (db : Database) : List (Employee × Nickname) :=
  join (fun e n => eq e.name n.name) db.employees db.nicknames

/-- `ON (jt.name = e.name AND n.nickname = jt.nickname AND jt.title = e.title)` -/
def onJoinTable (p : Employee × Nickname) (jt : JoinRow) : Truth :=
  ((eq jt.name p.1.name).and (eq p.2.nickname jt.nickname)).and (eq jt.title p.1.title)

/-- The rows that `join_table.sql` selects, reading `join_table` as it is before the insert. -/
def selectNew (db : Database) : List JoinRow :=
  (filterWhere (fun p => isNull (p.2.bind JoinRow.name))
    (leftOuterJoin onJoinTable (joined db) db.joinTable)).map fun p => project p.1

/-- `INSERT INTO TABLE join_table SELECT ..` -/
def joinTableSql (db : Database) : Database :=
  { db with joinTable := db.joinTable ++ selectNew db }

/-- What can happen to the three tables; `LOAD DATA .. INTO TABLE` appends. -/
inductive Step where
  | loadEmployees (rows : List Employee)
  | loadNicknames (rows : List Nickname)
  | joinTableSql

def step (db : Database) : Step → Database
  | .loadEmployees rows => { db with employees := db.employees ++ rows }
  | .loadNicknames rows => { db with nicknames := db.nicknames ++ rows }
  | .joinTableSql => joinTableSql db

/-- The tables before the first execution, with an empty `join_table`. -/
def start (employees : List Employee) (nicknames : List Nickname) : Database :=
  ⟨employees, nicknames, []⟩

def run (db : Database) (steps : List Step) : Database := Transition.run step db steps

/-- The loads and executions of `load_and_run.sql`, with the repository's data files. -/
def loadAndRun : List Step :=
  [.loadEmployees [⟨some "bob", some "supervisor"⟩, ⟨some "steve", some "programmer"⟩],
   .loadNicknames [⟨some "bob", some "bob_nickname"⟩, ⟨some "steve", some "steve_nickname"⟩],
   .joinTableSql,
   .loadNicknames [⟨some "bob", some "another_bob_nickname"⟩,
     ⟨some "steve", some "another_steve_nickname"⟩],
   .joinTableSql]

/-! ## What the statement inserts -/

/-- The full recomputation: a row for every employee and every nickname of the same name. -/
def fullJoin (db : Database) : List JoinRow :=
  db.employees.flatMap fun e =>
    (db.nicknames.filter fun n => e.name.isSome && decide (e.name = n.name)).map fun n =>
      ⟨e.name, e.title, n.nickname⟩

/-- No column of the row is NULL. -/
def JoinRow.complete (r : JoinRow) : Bool := r.name.isSome && r.title.isSome && r.nickname.isSome

/-- It is the join of the statement, without the anti-join. -/
theorem fullJoin_eq (db : Database) : fullJoin db = (joined db).map project := by
  unfold fullJoin joined join matching
  rw [List.map_flatMap]
  simp only [List.map_map, isTrue_eq]
  rfl

theorem isTrue_onJoinTable (p : Employee × Nickname) (jt : JoinRow) :
    (onJoinTable p jt).isTrue = true ↔ (project p).complete = true ∧ jt = project p := by
  obtain ⟨⟨name, title⟩, ⟨name', nickname⟩⟩ := p
  obtain ⟨jname, jtitle, jnickname⟩ := jt
  simp only [onJoinTable, project, JoinRow.complete, isTrue_and, isTrue_eq, Bool.and_eq_true,
    decide_eq_true_eq, JoinRow.mk.injEq]
  constructor
  · rintro ⟨⟨⟨hn, rfl⟩, hk, rfl⟩, ht, rfl⟩
    exact ⟨⟨⟨hn, ht⟩, hk⟩, rfl, rfl, rfl⟩
  · rintro ⟨⟨⟨hn, ht⟩, hk⟩, rfl, rfl, rfl⟩
    exact ⟨⟨⟨hn, rfl⟩, hk, rfl⟩, ht, rfl⟩

theorem selectNew_eq (db : Database) :
    selectNew db = (fullJoin db).filter fun r => !(r.complete && decide (r ∈ db.joinTable)) := by
  have hcol : ∀ p jt, (onJoinTable p jt).isTrue = true → jt.name.isSome = true := by
    intro p jt h
    obtain ⟨hc, rfl⟩ := (isTrue_onJoinTable p jt).1 h
    simp only [JoinRow.complete, Bool.and_eq_true] at hc
    exact hc.1.1
  have hmatch : ∀ p, (db.joinTable.any fun jt => (onJoinTable p jt).isTrue)
      = ((project p).complete && decide (project p ∈ db.joinTable)) := by
    intro p
    rw [Bool.eq_iff_iff, List.any_eq_true, Bool.and_eq_true, decide_eq_true_eq]
    constructor
    · rintro ⟨jt, hjt, h⟩
      obtain ⟨hc, rfl⟩ := (isTrue_onJoinTable p jt).1 h
      exact ⟨hc, hjt⟩
    · rintro ⟨hc, hmem⟩
      exact ⟨_, hmem, (isTrue_onJoinTable p _).2 ⟨hc, rfl⟩⟩
  rw [selectNew, filterWhere_isNull_leftOuterJoin hcol, fullJoin_eq, List.filter_map, List.map_map]
  simp only [hmatch]
  rfl

theorem mem_fullJoin {db : Database} {r : JoinRow} :
    r ∈ fullJoin db ↔ r.name.isSome = true ∧ ⟨r.name, r.title⟩ ∈ db.employees ∧
      ⟨r.name, r.nickname⟩ ∈ db.nicknames := by
  simp only [fullJoin_eq, joined, List.mem_map, Prod.exists, mem_join, isTrue_eq, Bool.and_eq_true,
    decide_eq_true_eq, project]
  constructor
  · rintro ⟨e, n, ⟨he, hn, hs, heq⟩, rfl⟩
    exact ⟨hs, he, by rwa [heq]⟩
  · rintro ⟨hs, he, hn⟩
    exact ⟨_, _, ⟨he, hn, hs, rfl⟩, rfl⟩

theorem count_project_matching (nicknames : List Nickname) (e : Employee) (r : JoinRow) :
    ((matching (fun e n => eq e.name n.name) nicknames e).map fun n => project (e, n)).count r
      = if e = ⟨r.name, r.title⟩ ∧ r.name.isSome = true
        then nicknames.count ⟨r.name, r.nickname⟩ else 0 := by
  rw [List.count, List.countP_map, matching, List.countP_filter]
  have hrow : ∀ n : Nickname, (((fun x => x == r) ∘ fun n => project (e, n)) n
      && (eq e.name n.name).isTrue) = true ↔
        (e = ⟨r.name, r.title⟩ ∧ r.name.isSome = true) ∧ n = ⟨r.name, r.nickname⟩ := by
    intro n
    obtain ⟨name, title⟩ := e
    obtain ⟨name', nickname⟩ := n
    obtain ⟨rname, rtitle, rnickname⟩ := r
    simp only [Function.comp_apply, project, isTrue_eq, Bool.and_eq_true, beq_iff_eq,
      decide_eq_true_eq, JoinRow.mk.injEq, Employee.mk.injEq, Nickname.mk.injEq]
    constructor
    · rintro ⟨⟨rfl, rfl, rfl⟩, hs, rfl⟩
      exact ⟨⟨⟨rfl, rfl⟩, hs⟩, rfl, rfl⟩
    · rintro ⟨⟨⟨rfl, rfl⟩, hs⟩, rfl, rfl⟩
      exact ⟨⟨rfl, rfl, rfl⟩, hs, rfl⟩
  by_cases he : e = ⟨r.name, r.title⟩ ∧ r.name.isSome = true
  · rw [if_pos he, List.count]
    exact List.countP_congr fun n _ => by rw [hrow n]; simp [he]
  · rw [if_neg he, List.countP_eq_zero]
    exact fun n _ h => he ((hrow n).1 h).1

/-- A row of the join stands there once for every pair of rows it comes from. -/
theorem count_fullJoin (db : Database) {r : JoinRow} (hr : r.name.isSome = true) :
    (fullJoin db).count r
      = db.employees.count ⟨r.name, r.title⟩ * db.nicknames.count ⟨r.name, r.nickname⟩ := by
  rw [fullJoin_eq, joined, join, List.map_flatMap]
  simp only [List.map_map, Function.comp_def]
  induction db.employees with
  | nil => simp
  | cons e es ih =>
    rw [List.flatMap_cons, List.count_append, ih, count_project_matching, List.count_cons,
      Nat.add_mul, Nat.add_comm]
    congr 1
    by_cases he : e = ⟨r.name, r.title⟩
    · rw [if_pos ⟨he, hr⟩, if_pos (by simpa using he), Nat.one_mul]
    · rw [if_neg (fun h => he h.1), if_neg (by simpa using he), Nat.zero_mul]

/-! ## Loads and executions -/

theorem fullJoin_joinTableSql (db : Database) : fullJoin (joinTableSql db) = fullJoin db := rfl

/-- No employee and no nickname has a NULL field. -/
structure NullFree (db : Database) : Prop where
  employees : ∀ e ∈ db.employees, e.name.isSome = true ∧ e.title.isSome = true
  nicknames : ∀ n ∈ db.nicknames, n.name.isSome = true ∧ n.nickname.isSome = true

/-- Without NULLs the statement inserts the rows of the join that are not in the table yet. -/
theorem NullFree.selectNew_eq {db : Database} (h : NullFree db) :
    selectNew db = (fullJoin db).filter fun r => !decide (r ∈ db.joinTable) := by
  rw [IncrementalInsert.selectNew_eq]
  refine List.filter_congr fun r hr => ?_
  obtain ⟨hs, he, hn⟩ := mem_fullJoin.1 hr
  have hc : r.complete = true := by
    simp [JoinRow.complete, (h.employees _ he).1, (h.employees _ he).2, (h.nicknames _ hn).2]
  rw [hc, Bool.true_and]

theorem NullFree.disjoint_selectNew {db : Database} (h : NullFree db) :
    ∀ r ∈ db.joinTable, ∀ r' ∈ selectNew db, r ≠ r' := by
  intro r hr r' hr' heq
  rw [h.selectNew_eq, ← heq] at hr'
  simpa [hr] using (List.mem_filter.1 hr').2

theorem NullFree.count_selectNew {db : Database} (h : NullFree db) {r : JoinRow}
    (hr : r ∉ db.joinTable) : (selectNew db).count r = (fullJoin db).count r := by
  rw [h.selectNew_eq, List.count_filter (by simpa using hr)]

/-- What the sources of the join must be for a full recomputation to have no duplicates. -/
structure Clean (db : Database) : Prop extends NullFree db where
  employees_nodup : db.employees.Nodup
  nicknames_nodup : db.nicknames.Nodup

/-- Loads only append, so tables that end up clean were clean before. -/
theorem clean_of_step {db : Database} {s : Step} (h : Clean (step db s)) : Clean db := by
  cases s with
  | loadEmployees rows =>
    exact ⟨⟨fun e he => h.employees e (List.mem_append_left _ he), h.nicknames⟩,
      (List.nodup_append.1 h.employees_nodup).1, h.nicknames_nodup⟩
  | loadNicknames rows =>
    exact ⟨⟨h.employees, fun n hn => h.nicknames n (List.mem_append_left _ hn)⟩,
      h.employees_nodup, (List.nodup_append.1 h.nicknames_nodup).1⟩
  | joinTableSql => exact ⟨⟨h.employees, h.nicknames⟩, h.employees_nodup, h.nicknames_nodup⟩

/-- The invariant of all runs: the join table is a set of rows of the current join. -/
structure Partial (db : Database) : Prop where
  nodup : db.joinTable.Nodup
  subset : ∀ r ∈ db.joinTable, r ∈ fullJoin db

theorem Clean.nodup_fullJoin {db : Database} (h : Clean db) : (fullJoin db).Nodup := by
  rw [List.nodup_iff_count_le_one]
  intro r
  by_cases hr : r.name.isSome = true
  · rw [count_fullJoin db hr]
    exact Nat.mul_le_mul (List.nodup_iff_count_le_one.1 h.employees_nodup _)
      (List.nodup_iff_count_le_one.1 h.nicknames_nodup _)
  · rw [List.count_eq_zero_of_not_mem (fun hmem => hr (mem_fullJoin.1 hmem).1)]
    exact Nat.zero_le 1

/-- Over clean tables an execution completes the join table to the full join. -/
theorem Partial.perm_joinTableSql {db : Database} (h : Partial db) (hc : Clean db) :
    (joinTableSql db).joinTable.Perm (fullJoin db) := by
  have hdisj := hc.toNullFree.disjoint_selectNew
  have hnew : (selectNew db).Nodup := by
    rw [hc.toNullFree.selectNew_eq]
    exact hc.nodup_fullJoin.filter _
  refine (List.perm_ext_iff_of_nodup (List.nodup_append.2 ⟨h.nodup, hnew, hdisj⟩)
    hc.nodup_fullJoin).2 fun r => ?_
  rw [hc.toNullFree.selectNew_eq, List.mem_append, List.mem_filter]
  have := h.subset r
  by_cases hr : r ∈ db.joinTable <;> simp [hr, this]

theorem Partial.step {db : Database} {s : Step} (h : Partial db) (hc : Clean (step db s)) :
    Partial (IncrementalInsert.step db s) := by
  cases s with
  | loadEmployees rows =>
    refine ⟨h.nodup, fun r hr => ?_⟩
    obtain ⟨hs, he, hn⟩ := mem_fullJoin.1 (h.subset r hr)
    exact mem_fullJoin.2 ⟨hs, List.mem_append_left _ he, hn⟩
  | loadNicknames rows =>
    refine ⟨h.nodup, fun r hr => ?_⟩
    obtain ⟨hs, he, hn⟩ := mem_fullJoin.1 (h.subset r hr)
    exact mem_fullJoin.2 ⟨hs, he, List.mem_append_left _ hn⟩
  | joinTableSql =>
    have hclean : Clean db := clean_of_step hc
    have hperm := h.perm_joinTableSql hclean
    exact ⟨hperm.nodup_iff.2 hclean.nodup_fullJoin, fun r hr => hperm.mem_iff.1 hr⟩

/-- **Incremental insert equals full recomputation.** After any loads and executions that end with
    an execution, over tables that in the end are free of NULLs and of repeated rows, the join
    table is the full join, whatever the batches were. -/
theorem incremental_eq_recomputation (employees : List Employee) (nicknames : List Nickname)
    (steps : List Step)
    (hnull : NullFree (run (start employees nicknames) (steps ++ [.joinTableSql])))
    (hemployees : (run (start employees nicknames) (steps ++ [.joinTableSql])).employees.Nodup)
    (hnicknames : (run (start employees nicknames) (steps ++ [.joinTableSql])).nicknames.Nodup) :
    (run (start employees nicknames) (steps ++ [.joinTableSql])).joinTable.Perm
      (fullJoin (run (start employees nicknames) (steps ++ [.joinTableSql]))) := by
  have hclean : Clean (run (start employees nicknames) (steps ++ [.joinTableSql])) :=
    ⟨hnull, hemployees, hnicknames⟩
  rw [run, Transition.run_append] at hclean ⊢
  have hbefore : Clean (run (start employees nicknames) steps) :=
    clean_of_step (show Clean (step (run (start employees nicknames) steps) .joinTableSql)
      from hclean)
  have hpartial : Partial (run (start employees nicknames) steps) :=
    Transition.run_invariant (fun _ _ hc h => h.step hc) ⟨List.nodup_nil, nofun⟩
      (Transition.guarded_of_final (fun _ _ => clean_of_step) hbefore)
  exact hpartial.perm_joinTableSql hbefore

/-- The repository's own schedule and data. -/
theorem incremental_eq_recomputation_loadAndRun :
    (run (start [] []) loadAndRun).joinTable.Perm (fullJoin (run (start [] []) loadAndRun)) :=
  incremental_eq_recomputation [] [] loadAndRun.dropLast ⟨by decide, by decide⟩ (by decide)
    (by decide)

/-! ## Duplicates -/

/-- No row that the next execution inserts comes from a repeated employee or nickname. -/
def NewRowsOnce (db : Database) : Prop :=
  ∀ e ∈ db.employees, ∀ n ∈ db.nicknames, e.name = n.name →
    project (e, n) ∉ db.joinTable → db.employees.count e = 1 ∧ db.nicknames.count n = 1

instance (db : Database) : Decidable (NewRowsOnce db) := inferInstanceAs (Decidable (∀ _, _))

/-- The condition on a step: before an execution, `NewRowsOnce`. -/
def ExecutedOnce (db : Database) : Step → Prop
  | .joinTableSql => NewRowsOnce db
  | _ => True

/-- The rows of a load have no NULL field. -/
def Step.NullFree : Step → Prop
  | .loadEmployees rows => ∀ e ∈ rows, e.name.isSome = true ∧ e.title.isSome = true
  | .loadNicknames rows => ∀ n ∈ rows, n.name.isSome = true ∧ n.nickname.isSome = true
  | .joinTableSql => True

theorem NullFree.step {db : Database} {s : Step} (hs : s.NullFree) (h : NullFree db) :
    NullFree (IncrementalInsert.step db s) := by
  cases s with
  | loadEmployees rows =>
    exact ⟨fun e he => (List.mem_append.1 he).elim (h.employees e) (hs e), h.nicknames⟩
  | loadNicknames rows =>
    exact ⟨h.employees, fun n hn => (List.mem_append.1 hn).elim (h.nicknames n) (hs n)⟩
  | joinTableSql => exact ⟨h.employees, h.nicknames⟩

/-- An execution that inserts no row twice inserts no row that comes from a repeated one. -/
theorem newRowsOnce_of_nodup {db : Database} (h : NullFree db) (hsel : (selectNew db).Nodup) :
    NewRowsOnce db := by
  intro e he n hn heq hnot
  have hs : (project (e, n)).name.isSome = true := (h.employees e he).1
  have hcount := List.nodup_iff_count_le_one.1 hsel (project (e, n))
  rw [h.count_selectNew hnot, count_fullJoin db hs] at hcount
  have hpe : (⟨(project (e, n)).name, (project (e, n)).title⟩ : Employee) = e := rfl
  have hpn : (⟨(project (e, n)).name, (project (e, n)).nickname⟩ : Nickname) = n := by
    rw [project, heq]
  rw [hpe, hpn] at hcount
  have hce : 0 < db.employees.count e := List.count_pos_iff.2 he
  have hcn : 0 < db.nicknames.count n := List.count_pos_iff.2 hn
  have hle : db.employees.count e ≤ 1 :=
    Nat.le_trans (Nat.le_mul_of_pos_right _ hcn) hcount
  have hle' : db.nicknames.count n ≤ 1 :=
    Nat.le_trans (Nat.le_mul_of_pos_left _ hce) hcount
  omega

theorem nodup_selectNew {db : Database} (h : NullFree db) (honce : NewRowsOnce db) :
    (selectNew db).Nodup := by
  rw [List.nodup_iff_count_le_one]
  intro r
  by_cases hr : r ∈ selectNew db
  · rw [h.selectNew_eq] at hr
    obtain ⟨hfull, hnot⟩ := List.mem_filter.1 hr
    have hnot : r ∉ db.joinTable := by simpa using hnot
    obtain ⟨hs, he, hn⟩ := mem_fullJoin.1 hfull
    obtain ⟨hce, hcn⟩ := honce _ he _ hn rfl hnot
    exact Nat.le_of_eq (by rw [h.count_selectNew hnot, count_fullJoin db hs, hce, hcn])
  · rw [List.count_eq_zero_of_not_mem hr]
    exact Nat.zero_le 1

/-- One execution keeps the join table free of duplicates exactly when `NewRowsOnce` holds. -/
theorem nodup_joinTableSql_iff {db : Database} (h : NullFree db) (hnd : db.joinTable.Nodup) :
    (joinTableSql db).joinTable.Nodup ↔ NewRowsOnce db := by
  rw [joinTableSql, List.nodup_append]
  exact ⟨fun hall => newRowsOnce_of_nodup h hall.2.1,
    fun honce => ⟨hnd, nodup_selectNew h honce, h.disjoint_selectNew⟩⟩

/-- What has been loaded, and what had been when the statement was executed last. -/
structure Loads where
  employees : List Employee
  nicknames : List Nickname
  joinedEmployees : List Employee
  joinedNicknames : List Nickname

def Loads.start (employees : List Employee) (nicknames : List Nickname) : Loads :=
  ⟨employees, nicknames, [], []⟩

def Loads.step (l : Loads) : Step → Loads
  | .loadEmployees rows => { l with employees := l.employees ++ rows }
  | .loadNicknames rows => { l with nicknames := l.nicknames ++ rows }
  | .joinTableSql => { l with joinedEmployees := l.employees, joinedNicknames := l.nicknames }

/-- Of two rows that join, an execution finds both loaded once, or an earlier one has had both. -/
def LoadedOnce (l : Loads) : Step → Prop
  | .joinTableSql => ∀ e ∈ l.employees, ∀ n ∈ l.nicknames, e.name = n.name →
    ¬ (e ∈ l.joinedEmployees ∧ n ∈ l.joinedNicknames) →
      l.employees.count e = 1 ∧ l.nicknames.count n = 1
  | _ => True

/-- The join table has the rows that join of what had been loaded. -/
structure Holds (db : Database) (l : Loads) : Prop where
  employees : db.employees = l.employees
  nicknames : db.nicknames = l.nicknames
  joinTable : ∀ r, r ∈ db.joinTable ↔ r.name.isSome = true ∧
    ⟨r.name, r.title⟩ ∈ l.joinedEmployees ∧ ⟨r.name, r.nickname⟩ ∈ l.joinedNicknames
  joinedEmployees : l.joinedEmployees ⊆ l.employees
  joinedNicknames : l.joinedNicknames ⊆ l.nicknames

theorem Holds.step {db : Database} {l : Loads} (h : Holds db l) (s : Step) :
    Holds (IncrementalInsert.step db s) (l.step s) := by
  cases s with
  | loadEmployees rows =>
    exact ⟨congrArg (· ++ rows) h.employees, h.nicknames, h.joinTable,
      List.subset_append_of_subset_left _ h.joinedEmployees, h.joinedNicknames⟩
  | loadNicknames rows =>
    exact ⟨h.employees, congrArg (· ++ rows) h.nicknames, h.joinTable, h.joinedEmployees,
      List.subset_append_of_subset_left _ h.joinedNicknames⟩
  | joinTableSql =>
    refine ⟨h.employees, h.nicknames, fun r => ?_, List.Subset.refl _, List.Subset.refl _⟩
    have hnew : r ∈ (joinTableSql db).joinTable ↔ r ∈ db.joinTable ∨ r ∈ fullJoin db := by
      rw [joinTableSql, List.mem_append, selectNew_eq, List.mem_filter]
      by_cases hr : r ∈ db.joinTable <;> simp [hr]
    have hold : r ∈ db.joinTable → r ∈ fullJoin db := fun hr => by
      obtain ⟨hs, he, hn⟩ := (h.joinTable r).1 hr
      exact mem_fullJoin.2 ⟨hs, h.employees ▸ h.joinedEmployees he,
        h.nicknames ▸ h.joinedNicknames hn⟩
    refine hnew.trans ((or_iff_right_of_imp hold).trans ?_)
    rw [mem_fullJoin, h.employees, h.nicknames]
    exact Iff.rfl

theorem Holds.executedOnce_iff {db : Database} {l : Loads} (h : Holds db l) (hnull : NullFree db)
    (s : Step) : ExecutedOnce db s ↔ LoadedOnce l s := by
  cases s with
  | joinTableSql =>
    unfold ExecutedOnce NewRowsOnce LoadedOnce
    rw [← h.employees, ← h.nicknames]
    refine forall₂_congr fun e he => forall₃_congr fun n hn hname => imp_congr (not_congr ?_)
      Iff.rfl
    have hrow := h.joinTable (project (e, n))
    have hnick : (⟨(project (e, n)).name, (project (e, n)).nickname⟩ : Nickname) = n := by
      rw [project, hname]
    rw [hnick] at hrow
    exact hrow.trans (and_iff_right (hnull.employees e he).1)
  | _ => exact Iff.rfl

/-- The condition, read off the loads alone. -/
theorem guarded_executedOnce_iff (employees : List Employee) (nicknames : List Nickname)
    (hstart : NullFree (start employees nicknames)) (steps : List Step)
    (hsteps : ∀ s ∈ steps, s.NullFree) :
    Transition.Guarded step ExecutedOnce (start employees nicknames) steps ↔
      Transition.Guarded Loads.step LoadedOnce (Loads.start employees nicknames) steps := by
  have hnone : Holds (start employees nicknames) (Loads.start employees nicknames) :=
    ⟨rfl, rfl, fun r => by simp [start, Loads.start], List.nil_subset _, List.nil_subset _⟩
  refine @Transition.guarded_iff_of_rel _ _ _ _ _ _ _ (fun db l => Holds db l ∧ NullFree db)
    Step.NullFree ?_ ?_ _ _ _ hsteps ⟨hnone, hstart⟩
  · exact fun db l s hs ⟨h, hnull⟩ => ⟨h.step s, hnull.step hs⟩
  · exact fun db l s ⟨h, hnull⟩ => h.executedOnce_iff hnull s

/-- **When the join table stays free of duplicates.** In a run of NULL-free loads and executions
    every state has a duplicate-free join table if and only if before every execution each row to
    be inserted comes from one employee row and one nickname row; that is, if every two rows that
    join have each been loaded once when an execution first finds both. -/
theorem joinTable_nodup_iff (employees : List Employee) (nicknames : List Nickname)
    (hstart : NullFree (start employees nicknames)) (steps : List Step)
    (hsteps : ∀ s ∈ steps, s.NullFree) :
    ((∀ db ∈ Transition.states step (start employees nicknames) steps, db.joinTable.Nodup) ↔
      Transition.Guarded step ExecutedOnce (start employees nicknames) steps) ∧
    ((∀ db ∈ Transition.states step (start employees nicknames) steps, db.joinTable.Nodup) ↔
      Transition.Guarded Loads.step LoadedOnce (Loads.start employees nicknames) steps) := by
  have hiff : (∀ db ∈ Transition.states step (start employees nicknames) steps,
      db.joinTable.Nodup) ↔
      Transition.Guarded step ExecutedOnce (start employees nicknames) steps := by
    refine Transition.states_iff_guarded (fun _ _ hs h => h.step hs) ?_ hsteps hstart
      List.nodup_nil
    intro db s _ hnull hnd
    cases s with
    | joinTableSql => exact nodup_joinTableSql_iff hnull hnd
    | _ => exact iff_of_true hnd trivial
  exact ⟨hiff, hiff.trans (guarded_executedOnce_iff employees nicknames hstart steps hsteps)⟩

theorem joinTable_nodup_iff_loadAndRun :
    ((∀ db ∈ Transition.states step (start [] []) loadAndRun, db.joinTable.Nodup) ↔
      Transition.Guarded step ExecutedOnce (start [] []) loadAndRun) ∧
    ((∀ db ∈ Transition.states step (start [] []) loadAndRun, db.joinTable.Nodup) ↔
      Transition.Guarded Loads.step LoadedOnce (Loads.start [] []) loadAndRun) :=
  joinTable_nodup_iff [] [] ⟨by decide, by decide⟩ loadAndRun
    (by simp [loadAndRun, Step.NullFree])

/-- One employee line loaded twice. -/
def repeatedLoad : List Step :=
  [.loadEmployees [⟨some "bob", some "supervisor"⟩],
   .loadEmployees [⟨some "bob", some "supervisor"⟩],
   .loadNicknames [⟨some "bob", some "bob_nickname"⟩],
   .joinTableSql]

theorem joinTable_duplicates :
    (∀ s ∈ repeatedLoad, s.NullFree) ∧ ¬ (run (start [] []) repeatedLoad).joinTable.Nodup :=
  ⟨by simp [repeatedLoad, Step.NullFree], by decide⟩

/-! ## Running it again -/

/-- Two rows that join have no NULL in the columns that the anti-join compares. -/
def MatchesComplete (db : Database) : Prop :=
  ∀ e ∈ db.employees, ∀ n ∈ db.nicknames, e.name.isSome = true → e.name = n.name →
    e.title.isSome = true ∧ n.nickname.isSome = true

theorem selectNew_joinTableSql (db : Database) :
    selectNew (joinTableSql db) = (fullJoin db).filter fun r => !r.complete := by
  rw [selectNew_eq, fullJoin_joinTableSql]
  refine List.filter_congr fun r hr => ?_
  by_cases hc : r.complete = true
  · have hmem : r ∈ (joinTableSql db).joinTable := by
      rw [joinTableSql, List.mem_append, selectNew_eq, List.mem_filter]
      by_cases hj : r ∈ db.joinTable <;> simp [hj, hr]
    simp [hc, hmem]
  · simp [hc]

theorem selectNew_joinTableSql_eq_nil_iff (db : Database) :
    selectNew (joinTableSql db) = [] ↔ MatchesComplete db := by
  rw [selectNew_joinTableSql, List.filter_eq_nil_iff]
  constructor
  · intro h e he n hn hs heq
    have hr : project (e, n) ∈ fullJoin db := mem_fullJoin.2 ⟨hs, he, by rwa [project, heq]⟩
    have := h _ hr
    simp only [JoinRow.complete, project, Bool.not_eq_true', Bool.and_eq_true,
      Bool.not_eq_false] at this
    exact ⟨this.1.2, this.2⟩
  · intro h r hr
    obtain ⟨hs, he, hn⟩ := mem_fullJoin.1 hr
    obtain ⟨ht, hk⟩ := h _ he _ hn hs rfl
    simp [JoinRow.complete, hs, ht, hk]

/-- **When a second execution is a no-op.** After any run, executing the statement twice in a row
    inserts nothing the second time if and only if no two rows that join have a NULL title or
    nickname. -/
theorem second_execution_inserts_nothing_iff (employees : List Employee)
    (nicknames : List Nickname) (steps : List Step) :
    selectNew (joinTableSql (run (start employees nicknames) steps)) = [] ↔
      MatchesComplete (run (start employees nicknames) steps) :=
  selectNew_joinTableSql_eq_nil_iff _

/-- A line of the employees file without a title. -/
theorem second_execution_inserts_null_title :
    selectNew (joinTableSql (run (start [] [])
      [.loadEmployees [⟨some "bob", none⟩], .loadNicknames [⟨some "bob", some "bob_nickname"⟩]]))
      = [⟨some "bob", none, some "bob_nickname"⟩] := by
  decide

end HadoopExamples.IncrementalInsert
