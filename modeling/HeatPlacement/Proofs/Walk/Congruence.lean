import HeatPlacement.Proofs.Walk.Likeness

/-!
# Congruences of walks

A relation between walks that sequencing respects carries over from the levels below a `Level` to
the level itself. What two resolutions over the same documents have in common is therefore proved
once, of the levels below, and every function of one level inherits it.

* `Walk.Congruence`: a relation between walks that every step of a walk respects
* `Walk.Congruence.likeness`: it is a likeness over any scopes
* `Walk.Congruence.level_template`, `Walk.Congruence.level_resource`: **a level inherits** the
  relation from the levels below
-/

namespace HeatPlacement.Heat.Walk

/-- **A congruence**: a relation between walks with the same kind of answer that every step of a
walk respects. -/
structure Congruence where
  /-- The relation. -/
  Rel : {α : Type} → Walk α → Walk α → Prop
  /-- A known result is related to itself; it is never the depth limit. -/
  ofExcept : ∀ {α : Type} (result : Except TemplateError α), result ≠ .error .recursionLimit →
    Rel (ofExcept result) (ofExcept result)
  /-- A look at the position is related to itself. -/
  look : ∀ scopes : Scopes, Rel (look scopes) (look scopes)
  /-- Related walks with related continuations are related. -/
  bind : ∀ {α β : Type} {walk walk' : Walk α} {next next' : α → Walk β}, Rel walk walk' →
    (∀ a, Rel (next a) (next' a)) → Rel (walk >>= next) (walk' >>= next')
  /-- Related walks are related for a replica. -/
  withCursor : ∀ {α : Type} {walk walk' : Walk α} (cursor : Nat), Rel walk walk' →
    Rel (withCursor cursor walk) (withCursor cursor walk')

namespace Congruence

variable (R : Congruence)

/-- A congruence is a likeness over any scopes: both walks look at the same context. -/
def likeness (scopes : Scopes) : Likeness scopes scopes where
  Rel := R.Rel
  ofExcept := R.ofExcept
  look h := R.bind (R.look scopes) fun ctx => h ctx ctx (.refl ctx)
  bind := R.bind
  withCursor := R.withCursor

/-- Related walks are related under a function of their answers. -/
theorem map {α β : Type} (f : α → β) {walk walk' : Walk α} (h : R.Rel walk walk') :
    R.Rel (f <$> walk) (f <$> walk') := (R.likeness ⟨[], []⟩).map f h

/-! ### One level

The levels below are `deeper` and `deeper'`; all else of the two levels is the same. -/

variable {sources : Sources} {deeper deeper' : Resolver} {resources : Fields Json}

/-- Properties inherit the relation one by one. -/
theorem propertiesWith {property property' : String → Json → Walk (Option Json)}
    (h : ∀ key value, R.Rel (property key value) (property' key value)) (own : Fields Json) :
    R.Rel (Level.propertiesWith property own) (Level.propertiesWith property' own) :=
  (R.likeness ⟨[], []⟩).propertiesWith h own

/-- One replica inherits the relation. -/
theorem level_replica
    (template : ∀ nested parent, R.Rel (deeper.template nested parent)
      (deeper'.template nested parent))
    (nested properties scope : Fields Json) (cursor : Nat) :
    R.Rel (Level.replica ⟨sources, deeper, resources⟩ nested properties scope cursor)
      (Level.replica ⟨sources, deeper', resources⟩ nested properties scope cursor) :=
  (R.likeness sources.scopes).level_replica rfl template nested properties scope cursor

/-- A resource inherits the relation from its properties and the templates below. -/
theorem level_resourceWith
    (template : ∀ nested parent, R.Rel (deeper.template nested parent)
      (deeper'.template nested parent))
    {properties properties' : Fields Json → Walk (Fields Json)}
    (h : ∀ own, R.Rel (properties own) (properties' own)) (target scope : Fields Json) :
    R.Rel (Level.resourceWith ⟨sources, deeper, resources⟩ properties target scope)
      (Level.resourceWith ⟨sources, deeper', resources⟩ properties' target scope) :=
  (R.likeness sources.scopes).level_resourceWith (.refl sources) rfl template h target scope

section Siblings

variable (resource : ∀ target scope, R.Rel (deeper.resource resources target scope)
  (deeper'.resource resources target scope))

include resource

/-- A `scheduler_hints` property inherits the relation. -/
theorem level_schedulerHints (value : Json) (scope : Fields Json) :
    R.Rel (Level.schedulerHints ⟨sources, deeper, resources⟩ value scope)
      (Level.schedulerHints ⟨sources, deeper', resources⟩ value scope) :=
  (R.likeness sources.scopes).level_schedulerHints rfl resource value scope

/-- What one resource of a template gives to the result inherits the relation. -/
theorem level_place (parent : Option (Fields Json)) (name : String) (value : Json) :
    R.Rel (Level.place ⟨sources, deeper, resources⟩ parent name value)
      (Level.place ⟨sources, deeper', resources⟩ parent name value) :=
  (R.likeness sources.scopes).level_place resource parent name value

/-- **A template inherits the relation** from the resources below. -/
theorem level_template (parent : Option (Fields Json)) :
    R.Rel (Level.template ⟨sources, deeper, resources⟩ parent)
      (Level.template ⟨sources, deeper', resources⟩ parent) :=
  (R.likeness sources.scopes).level_template resource parent

end Siblings

/-- One property inherits the relation. -/
theorem level_property
    (template : ∀ nested parent, R.Rel (deeper.template nested parent)
      (deeper'.template nested parent))
    (resource : ∀ target scope, R.Rel (deeper.resource resources target scope)
      (deeper'.resource resources target scope))
    (scope : Fields Json) (key : String) (value : Json) :
    R.Rel (Level.property ⟨sources, deeper, resources⟩ scope key value)
      (Level.property ⟨sources, deeper', resources⟩ scope key value) :=
  (R.likeness sources.scopes).level_property (.refl sources) rfl template resource scope key value

/-- **A resource inherits the relation** from the templates and resources below. -/
theorem level_resource
    (template : ∀ nested parent, R.Rel (deeper.template nested parent)
      (deeper'.template nested parent))
    (resource : ∀ target scope, R.Rel (deeper.resource resources target scope)
      (deeper'.resource resources target scope))
    (target scope : Fields Json) :
    R.Rel (Level.resource ⟨sources, deeper, resources⟩ target scope)
      (Level.resource ⟨sources, deeper', resources⟩ target scope) :=
  (R.likeness sources.scopes).level_resource (.refl sources) rfl template resource target scope

end Congruence

end HeatPlacement.Heat.Walk
