import HeatPlacement.Heat.Resolution
import HeatPlacement.Json.Decode
import HeatPlacement.Yaml.Value

/-!
# Heat stack requests

* `HeatRequest`: a template with its nested files, its environment and the caller's parameters
* `HeatRequest.decode`, `HeatRequest.toJson`: its form as JSON
* `HeatRequest.resolveWith`: the resources that it asks for, with any reader of texts
* `HeatRequest.resolve`: the resources that it asks for
-/

namespace HeatPlacement

/-- A request for a stack. Documents are text or parsed. -/
structure HeatRequest where
  stackName : Option String
  template : Json
  /-- Nested templates under the names by which they are referred to. -/
  files : Fields Json
  environment : Json
  /-- The caller's parameter values. -/
  parameters : Fields Json
  deriving DecidableEq, Repr, Inhabited

namespace HeatRequest

/-- The request without any member. -/
def empty : HeatRequest := ⟨none, .null, [], .null, []⟩

/-- The members, in the order of their declaration. -/
def memberNames : List String := ["stack_name", "template", "files", "environment", "parameters"]

/-- Set one member. An absent mapping and null are the empty mapping. -/
def set (request : HeatRequest) (name : String) (value : Json) :
    Except DecodeError HeatRequest :=
  match name with
  | "stack_name" =>
    (Decode.optional Decode.text value).map fun stackName => { request with stackName := stackName }
  | "template" => .ok { request with template := value }
  | "files" =>
    (Decode.optional Decode.mapping value).map fun files =>
      { request with files := files.getD [] }
  | "environment" => .ok { request with environment := value }
  | "parameters" =>
    (Decode.optional Decode.mapping value).map fun parameters =>
      { request with parameters := parameters.getD [] }
  | _ => .ok request

/-- The request that a value holds. -/
def decode : Json → Except DecodeError HeatRequest :=
  Decode.record "struct HeatRequest" memberNames set empty

/-- The JSON form. A missing stack name is left out. -/
def toJson (request : HeatRequest) : Json :=
  .obj ((request.stackName.map fun name => ("stack_name", Json.str name)).toList ++
    [("template", request.template), ("files", .obj request.files),
      ("environment", request.environment), ("parameters", .obj request.parameters)])

/-- The parameters of an environment; none if they are no mapping. -/
def environmentParameters (environment : Fields Json) : Fields Json :=
  ((Fields.get? environment "parameters").bind Json.asObj?).getD []

/-- The resources that the request asks for, where texts are read in a given way. The template is
read before the environment. -/
def resolveWith (reader : Heat.Reader) (request : HeatRequest) :
    Except Heat.TemplateError (Fields Json) := do
  let template ← Heat.normalize reader "template" request.template
  let environment ← Heat.normalize reader "environment" request.environment
  let scopes : Heat.Scopes := ⟨environmentParameters environment, request.parameters⟩
  Heat.resolveTemplate ⟨reader, request.files, scopes⟩ template

/-- The resources that the request asks for. Its texts are YAML. -/
def resolve (request : HeatRequest) : Except Heat.TemplateError (Fields Json) :=
  request.resolveWith Yaml.read?

end HeatRequest

end HeatPlacement
