import HeatPlacement.Json.Printer
import HeatPlacement.Json.Reader

/-!
# Responses to callers

A result row holds the engine's `status` and `result`, each a value or the text of one, beside
bookkeeping columns.

* `Response`: JSON or plain text
* `Response.ofPlacement`: the engine's result over the caller's parameters
* `Response.ofStatus`: the status alone
-/

namespace HeatPlacement

/-- What a caller gets from a result row. -/
inductive Response where
  | json (value : Json)
  | text (content : String)
  deriving DecidableEq, Repr, Inhabited

namespace Response

/-- The columns of a row that do not reach the caller, in the order of their removal. -/
def bookkeeping : List String := ["timestamp", "result", "request_id", "status"]

/-- The value of a column: a text that holds JSON is read, any other text stays. -/
def decoded : Option Json → Json
  | some (.str content) => (Json.read? content).getD (.str content)
  | some value => value
  | none => .null

/-- A status and nothing else. -/
def statusOnly (status : Json) : Response := .json (.single "status" status)

/-- The response to an operation without parameters. -/
def ofStatus (row : Json) : Response := statusOnly (decoded (row.member? "status"))

/-- Whether a status says that the engine failed. -/
def isFailure (status : Json) : Bool := status.member? "status" == some (.str "failed")

/-- The response to a creation or an update: the row's own columns, the engine's result over the
caller's parameters, and the status. A failure is its status alone. -/
def ofPlacement (row : Json) (parameters : Fields Json) : Response :=
  let status := decoded (row.member? "status")
  if isFailure status then statusOnly status
  else
    match decoded (row.member? "result") with
    | .obj result =>
      let columns := bookkeeping.foldl Fields.swapErase (row.asObj?.getD [])
      .json (.obj (Fields.insert (Fields.insert columns "parameters"
        (.obj (Fields.extend parameters result))) "status" status))
    | _ => .text ("Invalid response : " ++ row.text)

end Response

end HeatPlacement
