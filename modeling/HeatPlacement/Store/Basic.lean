import HeatPlacement.Json.Printer

/-!
# Row stores

The engine and its callers meet in a row store with two tables. A store is a state that answers
calls.

* `Table`: requests and results
* `StoreCall`: the calls; `StoreError`: why a call fails, with its wording
* `Store`: how a state answers a call, and the state after it
-/

namespace HeatPlacement

/-- The tables of a row store. -/
inductive Table where
  /-- What callers ask for. -/
  | requests
  /-- What the engine answers. -/
  | results
  deriving DecidableEq, Repr, Inhabited

/-- The name of a table. -/
def Table.name : Table → String
  | .requests => "requests"
  | .results => "results"

/-- Why a call fails. -/
inductive StoreError where
  /-- Every replica failed; the last one for the given reason. -/
  | unavailable (operation : String) (attempts : Nat) (last : String)
  /-- No replica is configured. -/
  | noEndpoints
  /-- The row to insert does not say under which key. -/
  | missingKey (row : Json)
  /-- The row is there, but its text is nested too deeply to be read. -/
  | unreadable
  deriving DecidableEq, Repr, Inhabited

/-- The wording of an error. -/
def StoreError.message : StoreError → String
  | .unavailable operation attempts last =>
    "store unavailable: " ++ operation ++ " failed on " ++ toString attempts ++
      " endpoint(s), last error: " ++ last
  | .noEndpoints => "no store endpoints configured"
  | .missingKey row => "row has no request_id: " ++ row.text
  | .unreadable => "deserialization error: recursion limit exceeded"

/-- A call to a row store. -/
inductive StoreCall where
  /-- Write the row that a document holds. -/
  | insert (table : Table) (document : Json)
  /-- Read the row under a key. -/
  | get (table : Table) (key : String)
  /-- Remove the row under a key. -/
  | delete (table : Table) (key : String) (document : Json)
  deriving DecidableEq, Repr, Inhabited

namespace StoreCall

/-- The name of a call. -/
def name : StoreCall → String
  | .insert _ _ => "insert"
  | .get _ _ => "get"
  | .delete _ _ _ => "delete"

/-- The table that is called. -/
def table : StoreCall → Table
  | .insert table _ | .get table _ | .delete table _ _ => table

end StoreCall

/-- The answer to a call: the row that was read, if there is one, or an error. A call that reads
nothing answers no row. -/
abbrev StoreAnswer := Except StoreError (Option Json)

/-- A row store with states of type `σ`. -/
abbrev Store (σ : Type) := StoreCall → σ → StoreAnswer × σ

/-- A store all of whose calls fail in the same way. -/
def Store.failing {σ : Type} (error : StoreCall → StoreError) : Store σ :=
  fun call state => (.error (error call), state)

end HeatPlacement
