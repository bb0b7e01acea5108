import HeatPlacement.Json.Reader
import HeatPlacement.Store.Basic

/-!
# The local row store

Two tables that map keys to rows. A row is kept as its JSON text.

* `LocalStore.putRow`, `LocalStore.row`, `LocalStore.removeRow`: single rows
* `LocalStore.store`: the calls of a row store
-/

namespace HeatPlacement

/-- The texts of the rows of both tables under their keys. -/
structure LocalStore where
  requests : Fields String
  results : Fields String
  deriving DecidableEq, Repr, Inhabited

namespace LocalStore

/-- The store without rows. -/
def empty : LocalStore := ⟨[], []⟩

/-- The rows of a table. -/
def rows (store : LocalStore) : Table → Fields String
  | .requests => store.requests
  | .results => store.results

/-- Replace the rows of a table. -/
def setRows (store : LocalStore) (rows : Fields String) : Table → LocalStore
  | .requests => { store with requests := rows }
  | .results => { store with results := rows }

@[simp] theorem rows_setRows (store : LocalStore) (rows : Fields String) (table other : Table) :
    (store.setRows rows table).rows other = if table = other then rows else store.rows other := by
  cases table <;> cases other <;> rfl

/-- The text under a key. -/
def rowText? (store : LocalStore) (table : Table) (key : String) : Option String :=
  Fields.get? (store.rows table) key

/-- Write a row under a key; one that was there is replaced. -/
def putRow (store : LocalStore) (table : Table) (key : String) (row : Json) : LocalStore :=
  store.setRows (Fields.insert (store.rows table) key row.text) table

/-- Remove the row under a key. -/
def removeRow (store : LocalStore) (table : Table) (key : String) : LocalStore :=
  store.setRows (Fields.erase (store.rows table) key) table

/-- A written row is found under its key, and nothing else changes. -/
theorem rowText?_putRow (store : LocalStore) (table other : Table) (key name : String)
    (row : Json) :
    (store.putRow table key row).rowText? other name =
      if table = other ∧ key = name then some row.text else store.rowText? other name := by
  by_cases h : table = other
  · subst h
    simp [rowText?, putRow, Fields.get?_insert]
  · simp [rowText?, putRow, h]

/-- A removed row is gone, and nothing else changes. -/
theorem rowText?_removeRow (store : LocalStore) (table other : Table) (key name : String) :
    (store.removeRow table key).rowText? other name =
      if table = other ∧ key = name then none else store.rowText? other name := by
  by_cases h : table = other
  · subst h
    simp [rowText?, removeRow, Fields.get?_erase]
  · simp [rowText?, removeRow, h]

/-- Whether there is a row under a key. -/
def hasRow (store : LocalStore) (table : Table) (key : String) : Bool :=
  (store.rowText? table key).isSome

/-- Read the row under a key. -/
def row (store : LocalStore) (table : Table) (key : String) : StoreAnswer :=
  match store.rowText? table key with
  | none => .ok none
  | some text =>
    match Json.read? text with
    | some row => .ok (some row)
    | none => .error .unreadable

/-- The row that a document holds: its `values`, or the document itself without them. -/
def insertedRow (document : Json) : Json := (document.member? "values").getD document

/-- The key of a row. -/
def rowKey? (row : Json) : Option String := (row.member? "request_id").bind Json.asStr?

/-- How a local store answers calls. -/
def store : Store LocalStore
  | .insert table document, state =>
    let row := insertedRow document
    match rowKey? row with
    | some key => (.ok none, state.putRow table key row)
    | none => (.error (.missingKey row), state)
  | .get table key, state => (state.row table key, state)
  | .delete table key _, state => (.ok none, state.removeRow table key)

end LocalStore

end HeatPlacement
