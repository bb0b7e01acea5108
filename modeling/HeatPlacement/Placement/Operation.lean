import HeatPlacement.Json.Decode

/-!
# Operations of the placement engine

* `Operation`: what a caller asks the engine to do, with its name
* `Operation.requestKey`: the row under which a request is submitted and answered
-/

namespace HeatPlacement

/-- What a caller asks the engine to do. -/
inductive Operation where
  | create
  | update
  | delete
  | confirm
  | rollback
  | groupQuery
  | groupCreate
  | groupUpdate
  | groupDelete
  deriving DecidableEq, Repr, Inhabited

namespace Operation

/-- The name of an operation. -/
def name : Operation → String
  | .create => "create"
  | .update => "update"
  | .delete => "delete"
  | .confirm => "confirm"
  | .rollback => "rollback"
  | .groupQuery => "group_query"
  | .groupCreate => "group_create"
  | .groupUpdate => "group_update"
  | .groupDelete => "group_delete"

/-- Every operation, in the order in which messages list them. -/
def all : List Operation :=
  [.create, .update, .delete, .confirm, .rollback, .groupQuery, .groupCreate, .groupUpdate,
    .groupDelete]

/-- No operation is missing from the list. -/
theorem mem_all (operation : Operation) : operation ∈ all := by
  cases operation <;> decide

/-- The operation that a value names. -/
def decode : Json → Except DecodeError Operation :=
  Decode.variant (all.map fun operation => (operation.name, operation))

/-- The row of a request: the operation's name, a hyphen and the request's identifier. -/
def requestKey (operation : Operation) (requestId : String) : String :=
  operation.name ++ "-" ++ requestId

end Operation

end HeatPlacement
