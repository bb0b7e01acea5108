import HeatPlacement.Proofs.Groups.Expandable
import HeatPlacement.Proofs.Groups.Expansion
import HeatPlacement.Proofs.Parameters.Parts

/-!
# Resolutions in lockstep

Two resolutions over different files do the same as long as they look up only names that lead to
the same template among both. Evaluation gives out nothing but parts of the documents, so that a
property of all parts says which names these are, and which failures are left.

* `FailureBound`: a property of the parts of the documents, and the failures that it leaves
* `Walk.Lockstep`: two walks that do the same, keep the property and fail in these ways only
* `Walk.Lockstep.bind`, `Walk.Lockstep.foldlM`: sequences and loops
* `FilesInStep`: files among which the names with the property lead to the same templates
* `Level.template_lockstep`, `Level.resource_lockstep`: **one level**, if the levels below are in
  lockstep
* `resolver_lockstep`: **so many levels**, by induction on their number
-/

namespace HeatPlacement.Heat

/-! ### Walks in lockstep -/

/-- **A property that bounds the failures.** It is one that evaluation keeps. The depth limit is
always among the failures, and a bad count is unless the counts of properties are integers. -/
structure FailureBound (P : Json → Prop) (allowed : TemplateError → Prop) : Prop
    extends Kept P where
  recursionLimit : allowed .recursionLimit
  invalidCount : ∀ own count, P (.obj own) → ("count", count) ∈ own →
    (asIndex? count).isSome ∨ ∀ value, allowed (.invalidCount value)

/-- An answer is as expected, and a failure is among those allowed. -/
def Accepted {α : Type} (allowed : TemplateError → Prop) (expected : α → Prop) :
    Except TemplateError α → Prop
  | .ok a => expected a
  | .error e => allowed e

namespace Walk

/-- **Two walks in lockstep**: from a position that keeps the property both do the same. They lead
to a position that keeps it again, and their outcome is accepted. -/
def Lockstep {α : Type} (P : Json → Prop) (allowed : TemplateError → Prop) (walk walk' : Walk α)
    (expected : α → Prop) : Prop :=
  ∀ here : Position, here.stack.Keeps P →
    walk' here = walk here ∧ (walk here).2.stack.Keeps P ∧
      Accepted allowed expected (walk.outcome here)

namespace Lockstep

variable {α β : Type} {P : Json → Prop} {allowed : TemplateError → Prop} {walk walk' : Walk α}
  {A : α → Prop} {B : β → Prop}

theorem ofExcept {result : Except TemplateError α} (h : Accepted allowed A result) :
    Lockstep P allowed (ofExcept result) (ofExcept result) A := fun _ hhere => ⟨rfl, hhere, h⟩

theorem pure {a : α} (h : A a) : Lockstep P allowed (Pure.pure a) (Pure.pure a) A :=
  fun _ hhere => ⟨rfl, hhere, h⟩

theorem throw {e : TemplateError} (h : allowed e) :
    Lockstep P allowed (throw e : Walk α) (throw e) A := fun _ hhere => ⟨rfl, hhere, h⟩

theorem look {scopes : Scopes} (h : scopes.Keeps P) :
    Lockstep P allowed (look scopes) (look scopes) (Context.Keeps P) :=
  fun _ hhere => ⟨rfl, hhere, ⟨h, hhere⟩⟩

theorem bind (h : Lockstep P allowed walk walk' A) {next next' : α → Walk β}
    (hnext : ∀ a, A a → Lockstep P allowed (next a) (next' a) B) :
    Lockstep P allowed (walk >>= next) (walk' >>= next') B := by
  intro here hhere
  obtain ⟨hsame, hthere, hanswer⟩ := h here hhere
  rw [outcome] at hanswer
  rw [outcome, bind_apply, bind_apply, hsame]
  obtain ⟨⟨a | a, there⟩, hwalk⟩ : ∃ r, walk here = r := ⟨_, rfl⟩
  all_goals rw [hwalk] at hthere hanswer ⊢
  · exact ⟨rfl, hthere, hanswer⟩
  · exact hnext a hanswer there hthere

theorem map (h : Lockstep P allowed walk walk' A) {f : α → β} (hf : ∀ a, A a → B (f a)) :
    Lockstep P allowed (f <$> walk) (f <$> walk') B := by
  rw [map_eq_pure_bind, map_eq_pure_bind]
  exact h.bind fun a ha => pure (hf a ha)

/-- Loops over the same items are in lockstep if their steps are. -/
theorem foldlM {step step' : β → α → Walk β} {items : List α} {start : β} (hstart : B start)
    (hstep : ∀ b, B b → ∀ a ∈ items, Lockstep P allowed (step b a) (step' b a) B) :
    Lockstep P allowed (items.foldlM step start) (items.foldlM step' start) B := by
  induction items generalizing start with
  | nil => exact pure hstart
  | cons item rest ih =>
    rw [List.foldlM_cons, List.foldlM_cons]
    refine (hstep start hstart item List.mem_cons_self).bind fun b hb => ih hb fun b hb a ha => ?_
    exact hstep b hb a (List.mem_cons_of_mem item ha)

theorem withCursor (h : Lockstep P allowed walk walk' A) (cursor : Nat) :
    Lockstep P allowed (withCursor cursor walk) (withCursor cursor walk') A := by
  intro here hhere
  obtain ⟨hsame, hthere, hanswer⟩ := h { here with cursor := some cursor } hhere
  rw [withCursor_apply, withCursor_apply, hsame]
  exact ⟨rfl, hthere, hanswer⟩

theorem within (h : Lockstep P allowed walk walk' A) {frame : Fields Json}
    (hframe : (Json.obj frame).Everywhere P) :
    Lockstep P allowed (within frame walk) (within frame walk') A := by
  intro here hhere
  obtain ⟨hsame, hthere, hanswer⟩ :=
    h { here with stack := here.stack.push frame } (hhere.push hframe)
  rw [within_apply, within_apply, hsame]
  exact ⟨rfl, hthere.popNested, hanswer⟩

theorem descend (h : Lockstep P allowed walk walk' A) (hlimit : allowed .recursionLimit) :
    Lockstep P allowed (descend walk) (descend walk') A := by
  intro here hhere
  by_cases hlt : here.depth < depthLimit
  · obtain ⟨hsame, hthere, hanswer⟩ := h { here with depth := here.depth + 1 } hhere
    rw [outcome, descend_of_lt hlt, descend_of_lt hlt, hsame]
    exact ⟨rfl, hthere, hanswer⟩
  · rw [outcome, descend_of_le (Nat.not_lt.mp hlt), descend_of_le (Nat.not_lt.mp hlt)]
    exact ⟨rfl, hhere, hlimit⟩

end Lockstep

end Walk

/-! ### Counts -/

section Counts

variable {P : Json → Prop} {allowed : TemplateError → Prop}

theorem integerCount_accepted (h : ∀ value, allowed (.invalidCount value)) (value : Json) :
    Accepted allowed (fun _ => True) (integerCount value) := by
  unfold integerCount
  cases asIndex? value with
  | some n => trivial
  | none => exact h value

/-- A count is found, or it is a bad one. -/
theorem Scopes.replicaCount_accepted (h : ∀ value, allowed (.invalidCount value)) (scopes : Scopes)
    (count : Option Json) (scope : Fields Json) :
    Accepted allowed (fun _ => True) (scopes.replicaCount count scope) := by
  unfold Scopes.replicaCount
  split
  · trivial
  · split
    · exact integerCount_accepted h _
    · split
      · trivial
      · exact integerCount_accepted h _

/-- The count of a group's own properties is found, or it is allowed to be bad. -/
theorem FailureBound.replicaCount (hP : FailureBound P allowed) (scopes : Scopes)
    {own : Fields Json} (hown : P (.obj own)) (scope : Fields Json) :
    Accepted allowed (fun _ => True)
      (scopes.replicaCount (Fields.get? own "count") scope) := by
  cases hcount : Fields.get? own "count" with
  | none => trivial
  | some count =>
    rcases hP.invalidCount own count hown (Fields.mem_of_get? hcount) with hinteger | hallowed
    · obtain ⟨n, hn⟩ := Option.isSome_iff_exists.mp hinteger
      rw [Scopes.replicaCount_eq_ok_iff.mpr (.integer hn)]
      trivial
    · exact scopes.replicaCount_accepted hallowed _ scope

/-- A `count` property is an integer, or it is allowed to be bad. -/
theorem FailureBound.countProperty (hP : FailureBound P allowed) (level : Level)
    {own : Fields Json} (hown : P (.obj own)) {value : Json} (hvalue : ("count", value) ∈ own) :
    Accepted allowed (fun _ => True) (level.countProperty value) := by
  rcases hP.invalidCount own value hown hvalue with hinteger | hallowed
  · obtain ⟨n, hn⟩ := Option.isSome_iff_exists.mp hinteger
    simp [Level.countProperty, paramName?_of_asIndex? hn, hn, Accepted]
  · unfold Level.countProperty
    dsimp only
    split
    · trivial
    · exact hallowed value

end Counts

/-! ### One level -/

/-- A template with resources; any template, if one without them is allowed to fail. -/
def Resolvable (allowed : TemplateError → Prop) (template : Fields Json) : Prop :=
  (resourcesOf? template).isSome ∨ allowed .missingResources

/-- **Files in lockstep**: every name with the property leads to the same template among both files,
with the property in every part, or to the same failure. -/
structure FilesInStep (P : Json → Prop) (allowed : TemplateError → Prop) (reader : Reader)
    (scopes : Scopes) (files files' : Fields Json) : Prop where
  kept : scopes.Keeps P
  same : ∀ name, P (.str name) →
    Sources.nested? ⟨reader, files', scopes⟩ name = Sources.nested? ⟨reader, files, scopes⟩ name
  templates : ∀ name, P (.str name) → Accepted allowed
    (fun nested => ∀ template ∈ nested,
      Resolvable allowed template ∧ (Json.obj template).Everywhere P)
    (Sources.nested? ⟨reader, files, scopes⟩ name)

/-- Templates and resources are resolved in lockstep. -/
structure Resolver.Lockstep (P : Json → Prop) (allowed : TemplateError → Prop)
    (resolver resolver' : Resolver) : Prop where
  template : ∀ {template : Fields Json} {parent : Option (Fields Json)},
    Resolvable allowed template → (Json.obj template).Everywhere P →
    (∀ fields ∈ parent, (Json.obj fields).Everywhere P) →
    Walk.Lockstep P allowed (resolver.template template parent)
      (resolver'.template template parent) fun _ => True
  resource : ∀ {resources resource scope : Fields Json}, (Json.obj resources).Everywhere P →
    (Json.obj resource).Everywhere P → (Json.obj scope).Everywhere P →
    Walk.Lockstep P allowed (resolver.resource resources resource scope)
      (resolver'.resource resources resource scope) fun _ => True

/-- Two levels over files in lockstep, with levels below in lockstep and the same resources. -/
structure LevelsInStep (P : Json → Prop) (allowed : TemplateError → Prop) (reader : Reader)
    (scopes : Scopes) (resources files files' : Fields Json) (deeper deeper' : Resolver) :
    Prop where
  files : FilesInStep P allowed reader scopes files files'
  deeper : deeper.Lockstep P allowed deeper'
  resources : (Json.obj resources).Everywhere P

/-- The name of a file and the properties that a group injects are parts of its own. -/
theorem Level.definition?_everywhere {P : Json → Prop} (hP : Kept P) {own injected : Fields Json}
    {type : String} (hown : (Json.obj own).Everywhere P)
    (h : definition? own = some (type, injected)) :
    P (.str type) ∧ (Json.obj injected).Everywhere P := by
  obtain ⟨definition, hdefinition, htype, -, rfl⟩ := definition?_eq_some_iff.mp h
  have hparts := hown.get? hdefinition
  exact ⟨(hparts.get? htype).self, propertiesOf_everywhere hP hparts⟩

/-- The type of a resource that names a template file is its member. -/
theorem get?_type_of_namesNestedTemplate {resource : Fields Json}
    (h : namesNestedTemplate (typeOf resource) = true) :
    Fields.get? resource "type" = some (.str (typeOf resource)) := by
  unfold typeOf at h ⊢
  cases htype : (Fields.get? resource "type").bind Json.asStr? with
  | none =>
    rw [htype] at h
    exact absurd h (by decide +kernel)
  | some type => exact bind_asStr?_eq_some_iff.mp htype

namespace Level

open Walk (Lockstep)

variable {P : Json → Prop} {allowed : TemplateError → Prop} {reader : Reader} {scopes : Scopes}
  {resources files files' : Fields Json} {deeper deeper' : Resolver}
  (hlevel : LevelsInStep P allowed reader scopes resources files files' deeper deeper')

include hlevel

theorem nested?_lockstep {name : String} (hname : P (.str name)) :
    Lockstep P allowed (Level.nested? ⟨⟨reader, files, scopes⟩, deeper, resources⟩ name)
      (Level.nested? ⟨⟨reader, files', scopes⟩, deeper', resources⟩ name) fun nested =>
        ∀ template ∈ nested, Resolvable allowed template ∧ (Json.obj template).Everywhere P := by
  unfold Level.nested?
  rw [hlevel.files.same name hname]
  exact .ofExcept (hlevel.files.templates name hname)

theorem context_lockstep :
    Lockstep P allowed (Level.context ⟨⟨reader, files, scopes⟩, deeper, resources⟩)
      (Level.context ⟨⟨reader, files', scopes⟩, deeper', resources⟩) (Context.Keeps P) :=
  .look hlevel.files.kept

variable (hP : FailureBound P allowed) {scope : Fields Json}
  (hscope : (Json.obj scope).Everywhere P)

include hP hscope

/-! #### Nested templates -/

section Templates

variable {nested properties : Fields Json}

/-- One replica of a template. -/
theorem replica_lockstep (hnested : Resolvable allowed nested)
    (hparts : (Json.obj nested).Everywhere P) (hproperties : (Json.obj properties).Everywhere P)
    (cursor : Nat) :
    Lockstep P allowed
      (Level.replica ⟨⟨reader, files, scopes⟩, deeper, resources⟩ nested properties scope cursor)
      (Level.replica ⟨⟨reader, files', scopes⟩, deeper', resources⟩ nested properties scope cursor)
      fun _ => True := by
  refine Lockstep.withCursor ?_ cursor
  refine (context_lockstep hlevel).bind fun ctx hctx => ?_
  have hinjected := Context.injected_everywhere hP.toKept hctx hscope.of_mem_some hproperties
    hlevel.resources
  exact (hlevel.deeper.template hnested hparts hinjected.of_mem_some).bind fun _ _ => .pure trivial

/-- The replicas of a template. -/
theorem replicas_lockstep (hnested : Resolvable allowed nested)
    (hparts : (Json.obj nested).Everywhere P) (hproperties : (Json.obj properties).Everywhere P)
    (count cursor : Nat) (done : Fields Json) :
    Lockstep P allowed
      (Level.replicas ⟨⟨reader, files, scopes⟩, deeper, resources⟩ nested properties scope count
        cursor done)
      (Level.replicas ⟨⟨reader, files', scopes⟩, deeper', resources⟩ nested properties scope count
        cursor done) fun _ => True := by
  induction count generalizing cursor done with
  | zero => exact .pure trivial
  | succ count ih =>
    exact (replica_lockstep hlevel hP hscope hnested hparts hproperties cursor).bind
      fun _ _ => ih _ _

/-- The replicas of a group. -/
theorem expandGroup_lockstep {own : Fields Json} (hown : (Json.obj own).Everywhere P) :
    Lockstep P allowed (Level.expandGroup ⟨⟨reader, files, scopes⟩, deeper, resources⟩ own scope)
      (Level.expandGroup ⟨⟨reader, files', scopes⟩, deeper', resources⟩ own scope)
      fun _ => True := by
  unfold Level.expandGroup
  cases hdefinition : definition? own with
  | none => exact .pure trivial
  | some definition =>
    obtain ⟨type, injected⟩ := definition
    obtain ⟨htype, hinjected⟩ := definition?_everywhere hP.toKept hown hdefinition
    refine (Lockstep.ofExcept (hP.replicaCount scopes hown.self scope)).bind fun count _ => ?_
    refine (nested?_lockstep hlevel htype).bind fun nested hnested => ?_
    cases nested with
    | none => exact .pure trivial
    | some nested =>
      obtain ⟨htemplate, hparts⟩ := hnested nested rfl
      exact (replicas_lockstep hlevel hP hscope htemplate hparts hinjected count 0 []).map
        fun _ _ => trivial

/-- A `resource_def` property. -/
theorem resourceDefinition_lockstep {value : Json} (hvalue : value.Everywhere P) :
    Lockstep P allowed
      (Level.resourceDefinition ⟨⟨reader, files, scopes⟩, deeper, resources⟩ value scope)
      (Level.resourceDefinition ⟨⟨reader, files', scopes⟩, deeper', resources⟩ value scope)
      fun _ => True := by
  have hnested : ∀ (name : Option String) injected, (∀ text ∈ name, P (.str text)) →
      (Json.obj injected).Everywhere P →
      Lockstep P allowed
        (Level.nestedValue ⟨⟨reader, files, scopes⟩, deeper, resources⟩ name injected)
        (Level.nestedValue ⟨⟨reader, files', scopes⟩, deeper', resources⟩ name injected)
        fun _ => True := by
    intro name injected hname hinjected
    cases name with
    | none => exact .pure trivial
    | some name =>
      refine (nested?_lockstep hlevel (hname name rfl)).bind fun nested hnested => ?_
      cases nested with
      | none => exact .pure trivial
      | some nested =>
        obtain ⟨htemplate, hparts⟩ := hnested nested rfl
        exact (hlevel.deeper.template htemplate hparts hinjected.of_mem_some).map fun _ _ => trivial
  unfold Level.resourceDefinition
  cases value with
  | obj definition =>
    refine (context_lockstep hlevel).bind fun ctx hctx => ?_
    have hinjected := Context.injected_everywhere hP.toKept hctx hscope.of_mem_some
      (propertiesOf_everywhere hP.toKept hvalue) hlevel.resources
    refine (hnested _ _ (fun type htype => ?_) hinjected).bind fun _ _ => .pure trivial
    exact (hvalue.get? (bind_asStr?_eq_some_iff.mp htype)).self
  | _ => exact .pure trivial

end Templates

/-! #### Resources beside the present one -/

omit hP in
/-- A resource that is found. -/
theorem sibling_lockstep {target : Fields Json} (htarget : (Json.obj target).Everywhere P) :
    Lockstep P allowed (Level.sibling ⟨⟨reader, files, scopes⟩, deeper, resources⟩ target scope)
      (Level.sibling ⟨⟨reader, files', scopes⟩, deeper', resources⟩ target scope) fun _ => True :=
  hlevel.deeper.resource hlevel.resources htarget hscope

/-- An `availability_zone` property. -/
theorem availabilityZone_lockstep (value : Json) :
    Lockstep P allowed
      (Level.availabilityZone ⟨⟨reader, files, scopes⟩, deeper, resources⟩ value scope)
      (Level.availabilityZone ⟨⟨reader, files', scopes⟩, deeper', resources⟩ value scope)
      fun _ => True := by
  have houtputs : ∀ resolved : Option Json, (∀ value ∈ resolved, value.Everywhere P) →
      Lockstep P allowed
        (Level.zoneFromOutputs ⟨⟨reader, files, scopes⟩, deeper, resources⟩ resolved scope)
        (Level.zoneFromOutputs ⟨⟨reader, files', scopes⟩, deeper', resources⟩ resolved scope)
        fun _ => True := by
    intro resolved hresolved
    unfold Level.zoneFromOutputs
    split
    · rename_i target output more
      refine (context_lockstep hlevel).bind fun ctx hctx => ?_
      cases ctx.cursor with
      | none => exact .pure trivial
      | some cursor =>
        -- The target is a mapping inside the value of a parameter.
        have htarget := (hresolved _ rfl).item List.mem_cons_self
        exact (sibling_lockstep hlevel hscope htarget).map fun _ _ => trivial
    · exact .pure trivial
  have hzone : ∀ params : Fields Json,
      Lockstep P allowed
        (Level.assignedZone ⟨⟨reader, files, scopes⟩, deeper, resources⟩ params scope)
        (Level.assignedZone ⟨⟨reader, files', scopes⟩, deeper', resources⟩ params scope)
        fun _ => True := by
    intro params
    refine (context_lockstep hlevel).bind fun ctx hctx => ?_
    split
    · split
      · exact .pure trivial
      · refine houtputs _ fun value hvalue => ?_
        exact Scopes.resolve_everywhere hP.toKept hctx.scopes hscope.of_mem_some
          (fun h => absurd h (by decide)) hvalue
    · exact .pure trivial
  unfold Level.availabilityZone Level.hostAssignment
  split
  · exact (context_lockstep hlevel).bind fun ctx _ => .pure trivial
  · exact (hzone _).bind fun zone _ =>
      (context_lockstep hlevel).bind fun ctx _ => .pure trivial
  · exact .pure trivial

omit hP in
/-- A `scheduler_hints` property. -/
theorem schedulerHints_lockstep (value : Json) :
    Lockstep P allowed
      (Level.schedulerHints ⟨⟨reader, files, scopes⟩, deeper, resources⟩ value scope)
      (Level.schedulerHints ⟨⟨reader, files', scopes⟩, deeper', resources⟩ value scope)
      fun _ => True := by
  have hsibling : ∀ (target : Option (Fields Json)) (otherwise : Json),
      (∀ fields ∈ target, (Json.obj fields).Everywhere P) →
      Lockstep P allowed
        (Level.siblingOr ⟨⟨reader, files, scopes⟩, deeper, resources⟩ target scope otherwise)
        (Level.siblingOr ⟨⟨reader, files', scopes⟩, deeper', resources⟩ target scope otherwise)
        fun _ => True := by
    intro target otherwise htarget
    cases target with
    | none => exact .pure trivial
    | some target => exact sibling_lockstep hlevel hscope (htarget target rfl)
  unfold Level.schedulerHints
  cases value.member? "group" with
  | none => exact .pure trivial
  | some group =>
    dsimp only
    split
    · refine (hsibling _ _ fun fields hfields => ?_).map fun _ _ => trivial
      exact hlevel.resources.get?_obj hfields
    · refine (context_lockstep hlevel).bind fun ctx hctx => ?_
      refine (hsibling _ _ fun fields hfields => ?_).map fun _ _ => trivial
      exact hctx.stack.find? (bind_asObj?_eq_some_iff.mp hfields)
    · exact .pure trivial

/-! #### Properties, resources and templates -/

/-- One of a resource's own properties. -/
theorem property_lockstep {own : Fields Json} (hown : (Json.obj own).Everywhere P) {key : String}
    {value : Json} (hentry : (key, value) ∈ own) :
    Lockstep P allowed (Level.property ⟨⟨reader, files, scopes⟩, deeper, resources⟩ scope key value)
      (Level.property ⟨⟨reader, files', scopes⟩, deeper', resources⟩ scope key value)
      fun _ => True := by
  have hvalue := hown.member hentry
  unfold Level.property
  split
  · exact .pure trivial
  · exact (Lockstep.ofExcept
      (hP.countProperty ⟨⟨reader, files, scopes⟩, deeper, resources⟩ hown.self hentry)).map
      fun _ _ => trivial
  · exact (resourceDefinition_lockstep hlevel hP hscope hvalue).map fun _ _ => trivial
  · exact (availabilityZone_lockstep hlevel hP hscope value).map fun _ _ => trivial
  · exact (schedulerHints_lockstep hlevel hscope value).map fun _ _ => trivial
  · exact .pure trivial
  · exact (context_lockstep hlevel).bind fun ctx _ => .pure trivial

/-- **A resource** of a level. -/
theorem resource_lockstep {resource : Fields Json} (hresource : (Json.obj resource).Everywhere P) :
    Lockstep P allowed (Level.resource ⟨⟨reader, files, scopes⟩, deeper, resources⟩ resource scope)
      (Level.resource ⟨⟨reader, files', scopes⟩, deeper', resources⟩ resource scope)
      fun _ => True := by
  unfold Level.resource
  split
  · rename_i own hown
    have hown := hresource.get?_obj (Option.filter_eq_some_iff.mp hown).1
    exact expandGroup_lockstep hlevel hP hscope hown
  · split
    · rename_i hfile
      have htype := hresource.get? (get?_type_of_namesNestedTemplate hfile)
      exact (nested?_lockstep hlevel htype.self).map fun _ _ => trivial
    · split
      · exact .pure trivial
      · rename_i own hown
        have hown := hresource.get?_obj hown
        refine Lockstep.map (A := fun _ => True)
          (.foldlM trivial fun resolved _ entry hentry => ?_) fun _ _ => trivial
        refine (property_lockstep hlevel hP hscope hown hentry).bind fun output _ => ?_
        cases output <;> exact .pure trivial

omit hscope in
/-- **The template** of a level. -/
theorem template_lockstep {parent : Option (Fields Json)}
    (hparent : ∀ fields ∈ parent, (Json.obj fields).Everywhere P) :
    Lockstep P allowed (Level.template ⟨⟨reader, files, scopes⟩, deeper, resources⟩ parent)
      (Level.template ⟨⟨reader, files', scopes⟩, deeper', resources⟩ parent) fun _ => True := by
  have hplace : ∀ entry ∈ resources,
      Lockstep P allowed
        (Level.place ⟨⟨reader, files, scopes⟩, deeper, resources⟩ parent entry.1 entry.2)
        (Level.place ⟨⟨reader, files', scopes⟩, deeper', resources⟩ parent entry.1 entry.2)
        fun _ => True := by
    rintro ⟨name, resource⟩ hentry
    have hresource := hlevel.resources.member hentry
    dsimp only at hresource ⊢
    unfold Level.place
    split
    · rename_i fields
      split
      · exact .pure trivial
      · split
        · exact .pure trivial
        · -- Own and injected properties are parts of documents, and so is what is merged from them.
          have hmerged := merged_everywhere hP.toKept (propertiesOf_everywhere hP.toKept hresource)
            hparent
          have hplaced := hresource.insert hmerged (hP.withProperties _ _ hresource.self)
          exact (sibling_lockstep hlevel hmerged hplaced).bind fun _ _ => .pure trivial
    · exact .pure trivial
  exact Lockstep.foldlM trivial fun _ _ entry hentry =>
    (hplace entry hentry).bind fun _ _ => .pure trivial

end Level

/-! ### All levels -/

/-- **So many levels**, by induction on their number. -/
theorem resolver_lockstep {P : Json → Prop} {allowed : TemplateError → Prop}
    (hP : FailureBound P allowed) {reader : Reader} {scopes : Scopes} {files files' : Fields Json}
    (hfiles : FilesInStep P allowed reader scopes files files') (room : Nat) :
    (resolver ⟨reader, files, scopes⟩ room).Lockstep P allowed
      (resolver ⟨reader, files', scopes⟩ room) := by
  induction room with
  | zero => exact ⟨fun _ _ _ => .throw hP.recursionLimit, fun _ _ _ => .throw hP.recursionLimit⟩
  | succ room ih =>
    constructor
    · intro template parent htemplate hparts hparent
      simp only [resolver]
      cases hresources : resourcesOf? template with
      | none =>
        rw [Resolvable, hresources] at htemplate
        exact .throw (htemplate.resolve_left Bool.false_ne_true)
      | some resources =>
        have hmembers : (Json.obj resources).Everywhere P := hparts.get?_obj hresources
        -- The resources are the frame that is pushed, and those of the level.
        exact ((Level.template_lockstep ⟨hfiles, ih, hmembers⟩ hP hparent).within hmembers).descend
          hP.recursionLimit
    · intro resources resource scope hresources hresource hscope
      exact (Level.resource_lockstep ⟨hfiles, ih, hresources⟩ hP hscope hresource).descend
        hP.recursionLimit

end HeatPlacement.Heat
