import Mathlib.Logic.Basic

set_option autoImplicit false

/-! # HBaseUtility.truncateTable under failure

`truncateTable` disables a table, reads its descriptor, deletes the table and creates it again from
the descriptor. Every remote call can throw `IOException`; of the four `catch` blocks around them,
besides those around `close`, two return and two fall through. `outcome` says what each choice of
throwing calls leaves of a table, and `truncateTable_leaves` that the code does just that, from any
store.

The store is generic in the schema of a table and in its rows, and a descriptor always names the
table it is stored under. -/

namespace HadoopExamples.HBase

/-! ## The store -/

/-- `HTableDescriptor`: the name of a table and its schema (column families and attributes). -/
structure HTableDescriptor (Schema : Type) where
  tableName : String
  schema : Schema

structure Table (Schema Row : Type) where
  descriptor : HTableDescriptor Schema
  enabled : Bool
  rows : List Row

structure Store (Schema Row : Type) where
  table : String → Option (Table Schema Row)
  descriptor_name : ∀ name t, table name = some t → t.descriptor.tableName = name

variable {Schema Row α : Type}

namespace Store

/-- The store with `entry` in the place of the table `name`. -/
def set (store : Store Schema Row) (name : String) (entry : Option (Table Schema Row))
    (h : ∀ t ∈ entry, t.descriptor.tableName = name) : Store Schema Row where
  table := fun other => if other = name then entry else store.table other
  descriptor_name := by
    intro other t ht
    by_cases hname : other = name
    · rw [if_pos hname] at ht
      rw [hname]
      exact h t ht
    · rw [if_neg hname] at ht
      exact store.descriptor_name other t ht

@[simp] theorem set_table (store : Store Schema Row) (name : String)
    (entry : Option (Table Schema Row)) (h : ∀ t ∈ entry, t.descriptor.tableName = name)
    (other : String) :
    (store.set name entry h).table other = if other = name then entry else store.table other :=
  rfl

/-- The store with the table `name`, if there is one, changed by `f`. -/
def modify (store : Store Schema Row) (name : String) (f : Table Schema Row → Table Schema Row)
    (h : ∀ t, (f t).descriptor = t.descriptor) : Store Schema Row :=
  store.set name ((store.table name).map f) (by
    intro t ht
    obtain ⟨t₀, ht₀, rfl⟩ := Option.map_eq_some_iff.1 ht
    rw [h t₀]
    exact store.descriptor_name name t₀ ht₀)

end Store

/-! ## Calls that can throw -/

/-- The remote calls of `truncateTable`, by where they stand in it. -/
inductive Site where
  | newHBaseAdmin
  | disableTable
  | isTableDisabled
  | closeAfterCheck
  | getTable
  | getTableDescriptor
  | deleteTable
  | createTable
  | closeAfterDelete
  | closeAtEnd
deriving DecidableEq

inductive IOException where
  /-- the call failed before it had an effect -/
  | remote (site : Site)
  | tableNotFound (name : String)
  | tableNotEnabled (name : String)
  | tableNotDisabled (name : String)
  | tableExists (name : String)

/-- The store and what the program has printed. -/
structure World (Schema Row : Type) where
  store : Store Schema Row
  out : String
  err : List IOException

abbrev Call (Schema Row α : Type) := EStateM IOException (World Schema Row) α

abbrev Program (Schema Row α : Type) := StateM (World Schema Row) α

/-- Which calls throw. -/
abbrev Faults := Site → Bool

/-- `call`, unless it is one that throws. -/
def Faults.at (faults : Faults) (site : Site) (call : Call Schema Row α) : Call Schema Row α :=
  if faults site then throw (.remote site) else call

/-- `try { call } catch (IOException e) { e.printStackTrace() }`; `none` where it was caught. -/
def attempt (call : Call Schema Row α) : Program Schema Row (Option α) := fun w =>
  match call w with
  | .ok a w => (some a, w)
  | .error e w => (none, { w with err := w.err ++ [e] })

def println (s : String) : Program Schema Row Unit :=
  modify fun w => { w with out := w.out ++ s ++ "\n" }

/-! ## The HBase client -/

namespace HBaseAdmin

def disableTable (name : String) : Call Schema Row Unit := fun w =>
  match w.store.table name with
  | none => .error (.tableNotFound name) w
  | some t =>
    if t.enabled then
      .ok () { w with store := w.store.modify name ({ · with enabled := false }) fun _ => rfl }
    else .error (.tableNotEnabled name) w

def isTableDisabled (name : String) : Call Schema Row Bool := fun w =>
  match w.store.table name with
  | none => .error (.tableNotFound name) w
  | some t => .ok (!t.enabled) w

def deleteTable (name : String) : Call Schema Row Unit := fun w =>
  match w.store.table name with
  | none => .error (.tableNotFound name) w
  | some t =>
    if t.enabled then .error (.tableNotDisabled name) w
    else .ok () { w with store := w.store.set name none nofun }

def createTable (descriptor : HTableDescriptor Schema) : Call Schema Row Unit := fun w =>
  match w.store.table descriptor.tableName with
  | some _ => .error (.tableExists descriptor.tableName) w
  | none =>
    let store := w.store.set descriptor.tableName (some ⟨descriptor, true, []⟩) (by
      intro t ht
      obtain rfl := Option.some.inj ht
      rfl)
    .ok () { w with store := store }

def close : Call Schema Row Unit := pure ()

end HBaseAdmin

/-- A table handle knows its name. -/
structure HTableInterface where
  name : String

/-- `HConnection.getTable`, which does not look the table up. -/
def getTable (name : String) : Call Schema Row HTableInterface := pure ⟨name⟩

def HTableInterface.getTableDescriptor (tbl : HTableInterface) :
    Call Schema Row (HTableDescriptor Schema) := fun w =>
  match w.store.table tbl.name with
  | none => .error (.tableNotFound tbl.name) w
  | some t => .ok t.descriptor w

/-! ## truncateTable -/

namespace HBaseUtility

/-- The `try` block of `truncateTable` that replaces the table. -/
def replaceTable (faults : Faults) (tableName : String) : Call Schema Row Unit := do
  let tbl ← faults.at .getTable (getTable tableName)
  let tblDesc ← faults.at .getTableDescriptor tbl.getTableDescriptor
  faults.at .deleteTable (HBaseAdmin.deleteTable tableName)
  faults.at .createTable (HBaseAdmin.createTable tblDesc)

def truncateTable (faults : Faults) (tableName : String) : Program Schema Row Unit := do
  match ← attempt (faults.at .newHBaseAdmin (pure ())) with
  | none => return
  | some _ =>
    println ("Preparing to delete table " ++ tableName ++ "\n")
    println ("... Disabling HBase table: " ++ tableName ++ "\n")
    -- a failure here is printed and goes on to the check
    let _ ← attempt (faults.at .disableTable (HBaseAdmin.disableTable tableName))
    match ← attempt (faults.at .isTableDisabled (HBaseAdmin.isTableDisabled tableName)) with
    | none =>
      let _ ← attempt (faults.at .closeAfterCheck HBaseAdmin.close)
      return
    | some isDisabled =>
      if isDisabled then
        println ("... Table " ++ tableName ++ " successfully disabled.\n")
        println ("... Deleting table " ++ tableName ++ "\n")
        match ← attempt (replaceTable faults tableName) with
        | some _ => pure ()
        | none =>
          let _ ← attempt (faults.at .closeAfterDelete HBaseAdmin.close)
        -- printed also after a failure
        println ("\nTable: " ++ tableName ++ " successfully deleted.\n")
      else
        println ("ERROR: Table " ++ tableName ++ " disable failed.\n")
        println "\n"
      let _ ← attempt (faults.at .closeAtEnd HBaseAdmin.close)

end HBaseUtility

/-! ## What a truncation leaves -/

/-- `disableTable`, thrown or not, on what is stored under the name. -/
def afterDisable (faults : Faults) (entry : Option (Table Schema Row)) :
    Option (Table Schema Row) :=
  if faults .disableTable then entry else entry.map fun t => { t with enabled := false }

/-- The replacing `try` block on a disabled table. -/
def afterReplace (faults : Faults) (t : Table Schema Row) : Option (Table Schema Row) :=
  if faults .getTable || faults .getTableDescriptor || faults .deleteTable then some t
  else if faults .createTable then none
  else some ⟨t.descriptor, true, []⟩

/-- What `truncateTable` leaves of what is stored under the name. -/
def outcome (faults : Faults) (entry : Option (Table Schema Row)) : Option (Table Schema Row) :=
  if faults .newHBaseAdmin then entry
  else
    match afterDisable faults entry with
    | none => none
    | some t => if faults .isTableDisabled || t.enabled then some t else afterReplace faults t

/-- From `w` to `w'` the table `name` has become `entry`, and no other table has changed. -/
def Leaves (w w' : World Schema Row) (name : String) (entry : Option (Table Schema Row)) : Prop :=
  ∀ other, w'.store.table other = if other = name then entry else w.store.table other

section Leaves

variable {w w' w'' : World Schema Row} {name : String} {entry entry' : Option (Table Schema Row)}

theorem Leaves.self (h : Leaves w w' name entry) : w'.store.table name = entry := by
  rw [h name, if_pos rfl]

theorem Leaves.other (h : Leaves w w' name entry) {other : String} (hne : other ≠ name) :
    w'.store.table other = w.store.table other := by
  rw [h other, if_neg hne]

theorem Leaves.trans (h : Leaves w w' name entry) (h' : Leaves w' w'' name entry') :
    Leaves w w'' name entry' := by
  intro other
  rw [h' other]
  split
  · rfl
  · rename_i hne
    exact h.other hne

theorem leaves_of_store_eq (h : w'.store = w.store) : Leaves w w' name (w.store.table name) := by
  intro other
  rw [h]
  split
  · rename_i heq
    rw [heq]
  · rfl

theorem Leaves.of_store_eq (h : Leaves w w' name entry) (hstore : w''.store = w'.store) :
    Leaves w w'' name entry := by
  intro other
  rw [hstore]
  exact h other

end Leaves

/-! ## The calls, one by one -/

section Calls

variable {faults : Faults} {site : Site} {w : World Schema Row} {name : String}

theorem attempt_at_of_throws (call : Call Schema Row α) (hsite : faults site = true) :
    attempt (faults.at site call) w = (none, { w with err := w.err ++ [.remote site] }) := by
  unfold Faults.at
  rw [if_pos hsite]
  rfl

theorem at_of_not_throws (call : Call Schema Row α) (hsite : faults site = false) :
    faults.at site call = call := by
  unfold Faults.at
  rw [if_neg (by rw [hsite]; exact Bool.false_ne_true)]

theorem at_bind_of_throws {β : Type} (call : Call Schema Row α) (next : α → Call Schema Row β)
    (hsite : faults site = true) :
    (faults.at site call >>= next) w = .error (.remote site) w := by
  unfold Faults.at
  rw [if_pos hsite]
  rfl

theorem bind_of_ok {β : Type} {call : Call Schema Row α} {a : α} {w' : World Schema Row}
    (hok : call w = .ok a w') (next : α → Call Schema Row β) : (call >>= next) w = next a w' := by
  show EStateM.bind call next w = next a w'
  unfold EStateM.bind
  rw [hok]

theorem attempt_close_store (site : Site) :
    (attempt (faults.at site HBaseAdmin.close) w).2.store = w.store := by
  cases hsite : faults site with
  | true => rw [attempt_at_of_throws _ hsite]
  | false =>
    rw [at_of_not_throws _ hsite]
    rfl

theorem attempt_disableTable_leaves :
    Leaves w (attempt (faults.at .disableTable (HBaseAdmin.disableTable name)) w).2 name
      (afterDisable faults (w.store.table name)) := by
  unfold afterDisable
  cases hsite : faults .disableTable with
  | true =>
    rw [attempt_at_of_throws _ hsite]
    exact leaves_of_store_eq rfl
  | false =>
    rw [at_of_not_throws _ hsite, if_neg Bool.false_ne_true]
    unfold attempt HBaseAdmin.disableTable
    cases hentry : w.store.table name with
    | none =>
      simp only [Option.map_none]
      rw [← hentry]
      exact leaves_of_store_eq rfl
    | some t =>
      cases hen : t.enabled with
      | true =>
        intro other
        simp only [hen, if_true, Store.modify, Store.set_table, hentry, Option.map_some]
      | false =>
        -- the table was disabled before, and the exception is caught
        have hself : { t with enabled := false } = t := by rw [← hen]
        simp only [hen, Bool.false_eq_true, if_false, Option.map_some]
        rw [hself, ← hentry]
        exact leaves_of_store_eq rfl

theorem attempt_isTableDisabled :
    (attempt (faults.at .isTableDisabled (HBaseAdmin.isTableDisabled name)) w).2.store = w.store ∧
    (attempt (faults.at .isTableDisabled (HBaseAdmin.isTableDisabled name)) w).1 =
      if faults .isTableDisabled then none
      else (w.store.table name).map fun t => !t.enabled := by
  cases hsite : faults .isTableDisabled with
  | true =>
    rw [attempt_at_of_throws _ hsite]
    exact ⟨rfl, rfl⟩
  | false =>
    rw [at_of_not_throws _ hsite, if_neg Bool.false_ne_true]
    unfold attempt HBaseAdmin.isTableDisabled
    cases w.store.table name with
    | none => exact ⟨rfl, rfl⟩
    | some t => exact ⟨rfl, rfl⟩

/-- The replacing block on a disabled table: before `deleteTable` it changes nothing, and after it
    the table exists only if `createTable` does not throw. -/
theorem replaceTable_leaves {t : Table Schema Row} (ht : w.store.table name = some t)
    (hdisabled : t.enabled = false) :
    Leaves w (attempt (HBaseUtility.replaceTable faults name) w).2 name
      (afterReplace faults t) := by
  have hname : t.descriptor.tableName = name := w.store.descriptor_name name t ht
  have hread : HTableInterface.getTableDescriptor ⟨name⟩ w = .ok t.descriptor w := by
    simp only [HTableInterface.getTableDescriptor, ht]
  have hdelete : HBaseAdmin.deleteTable name w
      = .ok () { w with store := w.store.set name none nofun } := by
    simp only [HBaseAdmin.deleteTable, ht, hdisabled, Bool.false_eq_true, if_false]
  unfold afterReplace attempt HBaseUtility.replaceTable
  -- one call after the other: where it throws, the world so far is what is left
  cases hget : faults .getTable with
  | true =>
    rw [at_bind_of_throws _ _ hget]
    exact ht ▸ leaves_of_store_eq rfl
  | false =>
  rw [at_of_not_throws _ hget]
  simp only [getTable, pure_bind]
  cases hdesc : faults .getTableDescriptor with
  | true =>
    rw [at_bind_of_throws _ _ hdesc]
    exact ht ▸ leaves_of_store_eq rfl
  | false =>
  rw [at_of_not_throws _ hdesc, bind_of_ok hread]
  cases hdel : faults .deleteTable with
  | true =>
    rw [at_bind_of_throws _ _ hdel]
    exact ht ▸ leaves_of_store_eq rfl
  | false =>
  rw [at_of_not_throws _ hdel, bind_of_ok hdelete]
  unfold Faults.at
  cases hcreate : faults .createTable with
  | true => exact fun other => rfl
  | false =>
    intro other
    simp only [HBaseAdmin.createTable, Bool.false_eq_true, if_false, if_true, hname,
      Store.set_table, Bool.or_false]
    split <;> rfl

end Calls

/-! ## The method -/

section Programs

variable {β : Type} {w₀ w : World Schema Row} {name : String} {entry : Option (Table Schema Row)}
  {p : Program Schema Row α} {next : α → Program Schema Row β}

/-- A statement that leaves the store as it is. -/
theorem quiet_bind (hp : (p w).2.store = w.store)
    (h : ∀ w', w'.store = w.store → Leaves w₀ (next (p w).1 w').2 name entry) :
    Leaves w₀ ((p >>= next) w).2 name entry :=
  h _ hp

/-- A statement that changes the table `name`. -/
theorem leaves_bind {entry' : Option (Table Schema Row)} (hp : Leaves w (p w).2 name entry')
    (h : ∀ w', Leaves w w' name entry' → Leaves w₀ (next (p w).1 w').2 name entry) :
    Leaves w₀ ((p >>= next) w).2 name entry :=
  h _ hp

theorem println_store (s : String) (w : World Schema Row) : (println s w).2.store = w.store := rfl

end Programs

/-- The effect of `truncateTable` on any store, whatever throws. -/
theorem truncateTable_leaves (faults : Faults) (name : String) (w : World Schema Row) :
    Leaves w (HBaseUtility.truncateTable faults name w).2 name
      (outcome faults (w.store.table name)) := by
  unfold HBaseUtility.truncateTable outcome
  cases hadmin : faults .newHBaseAdmin with
  | true =>
    refine quiet_bind ?_ fun w' hw' => ?_
    · rw [attempt_at_of_throws _ hadmin]
    · rw [attempt_at_of_throws _ hadmin]
      exact leaves_of_store_eq hw'
  | false =>
  rw [at_of_not_throws _ hadmin]
  refine quiet_bind rfl fun w₁ h₁ => ?_
  refine quiet_bind (println_store _ _) fun w₂ h₂ => ?_
  refine quiet_bind (println_store _ _) fun w₃ h₃ => ?_
  refine leaves_bind attempt_disableTable_leaves fun w₄ h₄ => ?_
  have hstore₃ : w₃.store = w.store := by rw [h₃, h₂, h₁]
  have hdisable : Leaves w w₄ name (afterDisable faults (w.store.table name)) := by
    rw [← hstore₃]
    exact (leaves_of_store_eq hstore₃).trans h₄
  refine quiet_bind attempt_isTableDisabled.1 fun w₅ h₅ => ?_
  have hchecked : Leaves w w₅ name (afterDisable faults (w.store.table name)) :=
    hdisable.of_store_eq h₅
  rw [attempt_isTableDisabled.2, hdisable.self]
  simp only [Bool.false_eq_true, if_false]
  cases hentry : afterDisable faults (w.store.table name) with
  | none =>
    rw [hentry] at hchecked
    simp only [Option.map_none, ite_self]
    exact hchecked.of_store_eq (attempt_close_store .closeAfterCheck)
  | some t =>
    rw [hentry] at hchecked
    cases hcheck : faults .isTableDisabled with
    | true =>
      simp only [if_true, Bool.true_or]
      exact hchecked.of_store_eq (attempt_close_store .closeAfterCheck)
    | false =>
      simp only [Bool.false_eq_true, if_false, Option.map_some, Bool.false_or]
      cases hen : t.enabled with
      | true =>
        simp only [Bool.not_true, Bool.false_eq_true, if_false, if_true]
        exact hchecked.of_store_eq (attempt_close_store .closeAtEnd)
      | false =>
        simp only [Bool.not_false, Bool.false_eq_true, if_false, if_true]
        refine quiet_bind (println_store _ _) fun w₆ h₆ => ?_
        refine quiet_bind (println_store _ _) fun w₇ h₇ => ?_
        have hstore₇ : w₇.store = w₅.store := by rw [h₇, h₆]
        have ht : w₇.store.table name = some t := by rw [hstore₇, hchecked.self]
        refine leaves_bind (replaceTable_leaves ht hen) fun w₈ h₈ => ?_
        have hreplaced := (hchecked.of_store_eq hstore₇).trans h₈
        -- what follows, caught or not, only prints and closes
        cases (attempt (HBaseUtility.replaceTable faults name) w₇).1 with
        | some _ => exact hreplaced.of_store_eq (attempt_close_store .closeAtEnd)
        | none =>
          refine quiet_bind (attempt_close_store .closeAfterDelete) fun w₉ h₉ => ?_
          exact (hreplaced.of_store_eq h₉).of_store_eq (attempt_close_store .closeAtEnd)

/-- The promise of an atomic truncation: an enabled table stays, enabled and with its descriptor,
    and holds all its rows or none; no other table changes. -/
def Atomic (before after : Store Schema Row) (name : String) (t : Table Schema Row) : Prop :=
  (∃ t', after.table name = some t' ∧ t'.enabled = true ∧ t'.descriptor = t.descriptor ∧
    (t'.rows = t.rows ∨ t'.rows = [])) ∧
  ∀ other ≠ name, after.table other = before.table other

/-- What `truncateTable` leaves of an enabled table: all of it, if `disableTable` (or the
    constructor before it) throws; the disabled table, if a call after it and up to `deleteTable`
    throws; no table, if only `createTable` throws; and otherwise an empty enabled table with the
    same descriptor. The other tables never change. -/
theorem truncateTable_enabled (faults : Faults) (name : String) (w : World Schema Row)
    (t : Table Schema Row) (ht : w.store.table name = some t) (henabled : t.enabled = true) :
    (∀ other ≠ name,
      (HBaseUtility.truncateTable faults name w).2.store.table other = w.store.table other) ∧
    (HBaseUtility.truncateTable faults name w).2.store.table name =
      if faults .newHBaseAdmin ∨ faults .disableTable then some t
      else if faults .isTableDisabled ∨ faults .getTable ∨ faults .getTableDescriptor ∨
        faults .deleteTable then some { t with enabled := false }
      else if faults .createTable then none
      else some { t with rows := [] } := by
  have hleaves := truncateTable_leaves faults name w
  refine ⟨fun other hne => hleaves.other hne, ?_⟩
  rw [hleaves.self, ht]
  unfold outcome afterDisable
  cases hadmin : faults .newHBaseAdmin with
  | true => simp
  | false =>
    cases hdisable : faults .disableTable with
    | true => simp [henabled]
    | false =>
      cases hcheck : faults .isTableDisabled with
      | true => simp
      | false => simp [afterReplace, henabled, or_assoc]

/-- The table `users` with two rows. -/
def users : Table String String := ⟨⟨"users", "cf1"⟩, true, ["jokey", "smurf"]⟩

def usersWorld : World String String where
  store := Store.set ⟨fun _ => none, nofun⟩ "users" (some users) (by
    intro t ht
    rw [← Option.some.inj ht]
    rfl)
  out := ""
  err := []

theorem truncateTable_enabled_users :
    (∀ other ≠ "users",
      (HBaseUtility.truncateTable (· = .deleteTable) "users" usersWorld).2.store.table other
        = usersWorld.store.table other) ∧
    (HBaseUtility.truncateTable (· = .deleteTable) "users" usersWorld).2.store.table "users"
      = some { users with enabled := false } :=
  truncateTable_enabled (· = .deleteTable) "users" usersWorld users rfl rfl

/-- `createTable` throws after `deleteTable` has not, and the table is gone. -/
theorem truncateTable_not_atomic :
    usersWorld.store.table "users" = some users ∧ users.enabled = true ∧
    ¬ Atomic usersWorld.store
      (HBaseUtility.truncateTable (· = .createTable) "users" usersWorld).2.store "users" users := by
  have hgone : (HBaseUtility.truncateTable (· = .createTable) "users" usersWorld).2.store.table
      "users" = none := by decide
  refine ⟨rfl, rfl, ?_⟩
  intro ⟨⟨t', ht', _⟩, _⟩
  rw [hgone] at ht'
  cases ht'

end HadoopExamples.HBase
