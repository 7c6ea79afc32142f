import HadoopExamples.Library.Hoare
import HadoopExamples.Platform.Python

set_option autoImplicit false

/-! # What the Python scripts use of the Thrift client of HBase

A script talks to the server by calls that can raise, and is over as soon as one does. Its session
keeps all calls that it makes and, apart from them, those that have returned: the two differ only
in a last call that raised. -/

namespace HadoopExamples.Thrift

open Python

structure Mutation where
  column : PyString
  value : PyString
deriving DecidableEq

structure BatchMutation where
  row : PyString
  mutations : List Mutation
deriving DecidableEq

inductive Call where
  | mutateRows (tableName : PyString) (rowBatch : List BatchMutation)
  | mutateRow (tableName row : PyString) (mutations : List Mutation)
deriving DecidableEq

inductive PyException where
  | thriftException (message : PyString)
  | zeroDivisionError
  | unboundLocalError
  | nameError
  | indexError
  | valueError
deriving DecidableEq

structure Session where
  made : List Call
  completed : List Call
  stdout : PyString

def Session.start : Session := ⟨[], [], []⟩

abbrev Script := EStateM PyException Session

/-- What a call raises, if anything, from the calls completed before it. -/
abbrev Raises := List Call → Call → Option PyString

/-- The exception is what some call raises. -/
def Raised (raises : Raises) (e : PyException) : Prop :=
  ∃ calls call message, raises calls call = some message ∧ e = .thriftException message

theorem not_raised {raises : Raises} (h : ∀ calls call, raises calls call = none)
    (e : PyException) : ¬ Raised raises e := by
  intro hraised
  obtain ⟨calls, call, message, hraise, _⟩ := hraised
  rw [h calls call] at hraise
  cases hraise

def send (raises : Raises) (call : Call) : Script Unit := fun s =>
  match raises s.completed call with
  | some message => .error (.thriftException message) { s with made := s.made ++ [call] }
  | none => .ok () { s with made := s.made ++ [call], completed := s.completed ++ [call] }

def mutateRows (raises : Raises) (tableName : PyString) (rowBatch : List BatchMutation) :
    Script Unit :=
  send raises (.mutateRows tableName rowBatch)

def mutateRow (raises : Raises) (tableName row : PyString) (mutations : List Mutation) :
    Script Unit :=
  send raises (.mutateRow tableName row mutations)

def print (text : PyString) : Script Unit := fun s =>
  .ok () { s with stdout := s.stdout ++ Python.print text }

/-! ## What calls send -/

/-- The rows of one call. -/
def Call.rows : Call → List BatchMutation
  | .mutateRows _ rowBatch => rowBatch
  | .mutateRow _ row mutations => [⟨row, mutations⟩]

/-- The batches of the `mutateRows` calls. -/
def rowBatches (calls : List Call) : List (List BatchMutation) :=
  calls.filterMap fun call => match call with
    | .mutateRows _ rowBatch => some rowBatch
    | .mutateRow .. => none

/-- A column is named by its family, a colon and a qualifier. -/
def Mutation.family (m : Mutation) : PyString := m.column.takeWhile (· ≠ ':')

/-- The rows with a cell in a family. -/
def rowsOf (family : PyString) (calls : List Call) : List BatchMutation :=
  (calls.flatMap Call.rows).filter fun r => r.mutations.any (·.family = family)

@[simp] theorem rowBatches_mutateRows (calls : List Call) (tableName : PyString)
    (rowBatch : List BatchMutation) :
    rowBatches (calls ++ [.mutateRows tableName rowBatch]) = rowBatches calls ++ [rowBatch] := by
  simp [rowBatches]

@[simp] theorem rowBatches_mutateRow (calls : List Call) (tableName row : PyString)
    (mutations : List Mutation) :
    rowBatches (calls ++ [.mutateRow tableName row mutations]) = rowBatches calls := by
  simp [rowBatches]

@[simp] theorem rowsOf_concat (family : PyString) (calls : List Call) (call : Call) :
    rowsOf family (calls ++ [call]) = rowsOf family calls ++
      call.rows.filter fun r => r.mutations.any (·.family = family) := by
  simp [rowsOf]

/-! ## Calls as steps of a script -/

variable {raises : Raises} {call : Call} {P : Session → Prop} {Q : Unit → Session → Prop}
  {E : PyException → Session → Prop}

theorem triple_send
    (hraise : ∀ s message, P s → raises s.completed call = some message →
      E (.thriftException message) { s with made := s.made ++ [call] })
    (hreturn : ∀ s, P s →
      Q () { s with made := s.made ++ [call], completed := s.completed ++ [call] }) :
    Hoare.Triple P (send raises call) Q E := by
  intro s hs
  unfold send
  cases hcall : raises s.completed call with
  | some message => exact hraise s message hs hcall
  | none => exact hreturn s hs

theorem triple_print {text : PyString}
    (h : ∀ s, P s → Q () { s with stdout := s.stdout ++ Python.print text }) :
    Hoare.Triple P (print text) Q E := h

end HadoopExamples.Thrift
