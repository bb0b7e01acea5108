import HeatPlacement.Placement.Operation
import HeatPlacement.Text.Octets
import HeatPlacement.Text.Percent

/-!
# Routes

* `Route`: what a path stands for
* `Route.ofPath?`: the route of a path
* `Route.methods`: the methods that a route serves, and `Route.action?` what each of them does
-/

namespace HeatPlacement.Api

/-- What a path stands for. -/
inductive Route where
  | placements
  /-- The confirmation of an earlier request, with its identifier as it stands in the path. -/
  | confirmation (prior : List Char)
  | rollback (prior : List Char)
  | groups
  | alive
  | ping
  deriving DecidableEq, Repr, Inhabited

/-- What a request asks for. -/
inductive Action where
  /-- An operation on a body, under the identifier in the query. -/
  | submit (operation : Operation)
  /-- An operation on a body, for the earlier request in the path. -/
  | settle (operation : Operation) (prior : List Char)
  | queryGroups
  | alive
  | ping
  deriving DecidableEq, Repr, Inhabited

namespace Route

/-- The route of a path. The two collections answer with and without a slash at the end; an
identifier may be empty. -/
def ofPath? (path : String) : Option Route :=
  match path with
  | "/placement/v1/" | "/placement/v1" => some .placements
  | "/groups/v1/" | "/groups/v1" => some .groups
  | "/alive" => some .alive
  | "/ping" => some .ping
  | _ =>
    let start := "/placement/v1/".toList
    if start.isPrefixOf path.toList then
      let (prior, rest) := (path.toList.drop start.length).span (· ≠ '/')
      if rest = "/confirm".toList then some (.confirmation prior)
      else if rest = "/rollback".toList then some (.rollback prior)
      else none
    else none

/-- The methods that a route serves, in the order in which they are listed. -/
def methods : Route → List String
  | .placements => ["POST", "PUT", "DELETE"]
  | .confirmation _ | .rollback _ => ["PUT"]
  | .groups => ["GET", "HEAD", "POST", "PUT", "DELETE"]
  | .alive | .ping => ["GET", "HEAD"]

/-- What a method does on a route. -/
def action? (route : Route) (method : String) : Option Action :=
  match route, method with
  | .placements, "POST" => some (.submit .create)
  | .placements, "PUT" => some (.submit .update)
  | .placements, "DELETE" => some (.submit .delete)
  | .confirmation prior, "PUT" => some (.settle .confirm prior)
  | .rollback prior, "PUT" => some (.settle .rollback prior)
  | .groups, "GET" | .groups, "HEAD" => some .queryGroups
  | .groups, "POST" => some (.submit .groupCreate)
  | .groups, "PUT" => some (.submit .groupUpdate)
  | .groups, "DELETE" => some (.submit .groupDelete)
  | .alive, "GET" | .alive, "HEAD" => some .alive
  | .ping, "GET" | .ping, "HEAD" => some .ping
  | _, _ => none

end Route

/-- The identifier that stands in a path, if its escapes are UTF-8. -/
def priorId? (prior : List Char) : Option String :=
  Text.ofOctets? (Text.Percent.decode (Text.octets (String.ofList prior)))

end HeatPlacement.Api
