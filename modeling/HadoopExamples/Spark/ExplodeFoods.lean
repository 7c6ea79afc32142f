import HadoopExamples.Library.Sql
import HadoopExamples.Platform.Java
import HadoopExamples.Platform.Spark

set_option autoImplicit false

/-! # Exploding favorite foods in two ways

`explode_and_friends.scala` turns each row of `favorite_foods` into one row for each food, once
with `DataFrame.explode` and the `split` of Java strings and once with a lateral view over the
`SPLIT` of SQL. `expl_agrees_iff` says on which tables the two give the same: those without a
missing list of foods and without one that ends in a comma. -/

namespace HadoopExamples.Spark

/-- A row of `favorite_foods`; `none` is NULL. -/
structure FavoriteFoods where
  userid : Option JavaInt
  favoriteFoods : Option JavaString
deriving DecidableEq

/-- A row of `favorite_foods` with one food of its list. -/
abbrev FavoriteFood := FavoriteFoods × JavaString

/-- What a call on the null reference throws. -/
structure NullPointerException where

/-- `foods => foods.split(",")` -/
def splitFoods : Option JavaString → Except NullPointerException (List JavaString)
  | some foods => .ok (foods.splitChar ',')
  | none => .error ⟨⟩

/-- `DataFrame.explode` on one row: the row with each result of `f` on its list of foods. -/
def explodeRow (f : Option JavaString → Except NullPointerException (List JavaString))
    (row : FavoriteFoods) : Except NullPointerException (List FavoriteFood) := do
  let foods ← f row.favoriteFoods
  return foods.map fun food => (row, food)

/-- `DataFrame.explode`, which fails as soon as `f` throws on one row. -/
def explode (f : Option JavaString → Except NullPointerException (List JavaString))
    (rows : List FavoriteFoods) : Except NullPointerException (List FavoriteFood) := do
  let exploded ← rows.mapM (explodeRow f)
  return exploded.flatten

def expl (table : List FavoriteFoods) : Except NullPointerException (List FavoriteFood) :=
  explode splitFoods table

/-- The columns `userid` and `favorite_food`. -/
def useridAndFood (row : FavoriteFood) : Option JavaInt × JavaString := (row.1.userid, row.2)

/-- `SELECT userid, favorite_food FROM favorite_foods LATERAL VIEW explode(SPLIT(favorite_foods,
    ',')) adTable AS favorite_food` -/
def lateral (table : List FavoriteFoods) : List (Option JavaInt × JavaString) :=
  (Sql.lateralView (fun row => Sql.split ',' row.favoriteFoods) table).map useridAndFood

/-- `expl` projected on the columns of `lateral`. -/
def explProjected (table : List FavoriteFoods) :
    Except NullPointerException (List (Option JavaInt × JavaString)) :=
  (expl table).map fun rows => rows.map useridAndFood

/-! ## The two expansions of a row -/

/-- The foods that `split` of Java finds in a row. -/
def javaFoods (row : FavoriteFoods) : List JavaString :=
  JavaString.splitChar ',' (row.favoriteFoods.getD [])

/-- The foods that `SPLIT` of SQL finds in a row. -/
def sqlFoods (row : FavoriteFoods) : List JavaString :=
  (Sql.split ',' row.favoriteFoods).getD []

/-- Java finds the first of the foods that SQL finds: it drops trailing empty ones. -/
theorem javaFoods_prefix_sqlFoods {row : FavoriteFoods} (hrow : row.favoriteFoods.isSome = true) :
    javaFoods row <+: sqlFoods row := by
  obtain ⟨foods, hfoods⟩ := Option.isSome_iff_exists.1 hrow
  unfold javaFoods sqlFoods
  rw [hfoods]
  exact Split.dropTrailing_prefix _

theorem javaFoods_eq_iff {row : FavoriteFoods} {foods : JavaString}
    (hrow : row.favoriteFoods = some foods) :
    javaFoods row = sqlFoods row ↔ foods.getLast? ≠ some ',' := by
  unfold javaFoods sqlFoods
  rw [hrow]
  refine (Split.dropTrailing_splitOnP_iff (· == ',') foods).trans ?_
  cases foods.getLast? <;> simp

theorem lateral_eq (table : List FavoriteFoods) :
    lateral table = table.flatMap fun row => (sqlFoods row).map fun food => (row.userid, food) := by
  unfold lateral Sql.lateralView
  rw [List.map_flatMap]
  simp only [List.map_map]
  rfl

theorem mapM_explodeRow_ok {table : List FavoriteFoods}
    (h : ∀ row ∈ table, row.favoriteFoods.isSome = true) :
    table.mapM (explodeRow splitFoods)
      = .ok (table.map fun row => (javaFoods row).map fun food => (row, food)) := by
  refine mapM_ok fun row hrow => ?_
  obtain ⟨foods, hfoods⟩ := Option.isSome_iff_exists.1 (h row hrow)
  unfold explodeRow javaFoods
  rw [hfoods]
  rfl

/-- `explode` completes on a table without NULL. -/
theorem explProjected_ok {table : List FavoriteFoods}
    (h : ∀ row ∈ table, row.favoriteFoods.isSome = true) :
    explProjected table
      = .ok (table.flatMap fun row => (javaFoods row).map fun food => (row.userid, food)) := by
  unfold explProjected expl explode
  rw [mapM_explodeRow_ok h]
  show Except.ok _ = Except.ok _
  rw [← List.flatMap_def]
  simp only [List.map_flatMap, List.map_map]
  rfl

theorem isSome_of_mapM_ok {table : List FavoriteFoods} {parts : List (List FavoriteFood)}
    (h : table.mapM (explodeRow splitFoods) = .ok parts) :
    ∀ row ∈ table, row.favoriteFoods.isSome = true := by
  intro row hrow
  obtain ⟨part, hpart⟩ := exists_of_mapM_ok h row hrow
  unfold explodeRow at hpart
  cases hfoods : row.favoriteFoods with
  | some foods => rfl
  | none =>
    rw [hfoods] at hpart
    cases hpart

/-- `explode` fails on a table with a NULL. -/
theorem isSome_of_explProjected_ok {table : List FavoriteFoods}
    {rows : List (Option JavaInt × JavaString)} (h : explProjected table = .ok rows) :
    ∀ row ∈ table, row.favoriteFoods.isSome = true := by
  cases hparts : table.mapM (explodeRow splitFoods) with
  | ok parts => exact isSome_of_mapM_ok hparts
  | error e =>
    unfold explProjected expl explode at h
    rw [hparts] at h
    cases h

/-! ## When they agree -/

/-- Both ways complete and give the same rows, as multisets, exactly on the tables without a NULL
    list of foods and without one that ends in a comma. -/
theorem expl_agrees_iff (table : List FavoriteFoods) :
    (∃ rows, explProjected table = .ok rows ∧ rows.Perm (lateral table)) ↔
      ∀ row ∈ table, ∃ foods, row.favoriteFoods = some foods ∧ foods.getLast? ≠ some ',' := by
  have hinj : ∀ row : FavoriteFoods,
      Function.Injective fun food : JavaString => (row.userid, food) := by
    intro row food food' heq
    exact (Prod.mk.inj heq).2
  have hrows : ∀ h : ∀ row ∈ table, row.favoriteFoods.isSome = true,
      (table.flatMap fun row => (javaFoods row).map fun food => (row.userid, food)).Perm
          (lateral table) ↔ ∀ row ∈ table, javaFoods row = sqlFoods row := by
    intro h
    rw [lateral_eq, Sql.flatMap_perm_iff_of_prefix
      fun row hrow => (javaFoods_prefix_sqlFoods (h row hrow)).map _]
    exact forall₂_congr fun row _ => (List.map_injective_iff.2 (hinj row)).eq_iff
  constructor
  · intro ⟨rows, hok, hperm⟩ row hrow
    have hsome := isSome_of_explProjected_ok hok
    obtain ⟨foods, hfoods⟩ := Option.isSome_iff_exists.1 (hsome row hrow)
    rw [explProjected_ok hsome] at hok
    rw [← Except.ok.inj hok, hrows hsome] at hperm
    exact ⟨foods, hfoods, (javaFoods_eq_iff hfoods).1 (hperm row hrow)⟩
  · intro h
    have hsome : ∀ row ∈ table, row.favoriteFoods.isSome = true := by
      intro row hrow
      obtain ⟨foods, hfoods, _⟩ := h row hrow
      rw [hfoods]
      rfl
    refine ⟨_, explProjected_ok hsome, (hrows hsome).2 ?_⟩
    intro row hrow
    obtain ⟨foods, hfoods, hlast⟩ := h row hrow
    exact (javaFoods_eq_iff hfoods).2 hlast

/-- A list of foods that ends in a comma, and a missing one: the first loses its empty last food,
    the second fails. -/
theorem expl_disagrees :
    explProjected [⟨some 1, some "a,".toList⟩] = .ok [(some 1, "a".toList)] ∧
    lateral [⟨some 1, some "a,".toList⟩] = [(some 1, "a".toList), (some 1, [])] ∧
    explProjected [⟨some 2, none⟩] = .error ⟨⟩ ∧ lateral [⟨some 2, none⟩] = [] ∧
    ¬ ∀ table, ∃ rows, explProjected table = .ok rows ∧ rows.Perm (lateral table) := by
  refine ⟨rfl, by decide, rfl, rfl, ?_⟩
  intro h
  obtain ⟨rows, hok, hperm⟩ := h [⟨some 1, some "a,".toList⟩]
  have hrows : rows = [(some 1, "a".toList)] := (Except.ok.inj hok).symm
  have hlength := hperm.length_eq
  rw [hrows] at hlength
  exact absurd hlength (by decide)

end HadoopExamples.Spark
