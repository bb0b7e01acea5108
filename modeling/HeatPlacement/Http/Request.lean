import HeatPlacement.Http.Uri

/-!
# Requests

* `Http.Request`: method, identifier, fields and body
* `Http.Request.fieldsValid`: whether every value may be sent
-/

namespace HeatPlacement.Http

/-- A request. -/
structure Request where
  method : String
  uri : Uri
  /-- Names and values in their order. -/
  fields : List (String × String)
  body : String
  deriving DecidableEq, Repr, Inhabited

/-- Whether a character may stand in the value of a field. -/
def isValueChar (c : Char) : Bool := c == '\t' || (' ' ≤ c && c != '\x7f')

/-- Whether every value may be sent. -/
def Request.fieldsValid (request : Request) : Bool :=
  request.fields.all fun field => field.2.toList.all isValueChar

end HeatPlacement.Http
