import HeatPlacement.Proofs.Walk.Congruence
import HeatPlacement.Yaml.Value
import Mathlib

/-!
# Resolution restores its position

Templates are entered and left, cursors are set and depths are counted by functions that call each
other and may fail at any step. Nevertheless a resolution ends where it began.

* `Position.Restored`: what a walk leaves as it was; a frame entered on an empty stack may stay
* `Walk.Restoring`: a walk that ends where it began, whether it fails or not
* `walkTemplate_restoring`, `walkResource_restoring`: **every resolution is restoring**
* `resolution_restores_position`: the position after a resolution, from every stack
-/

namespace HeatPlacement.Heat

namespace Position

/-- What a walk leaves as it was. On an empty stack the outermost frame may stay. -/
structure Restored (before after : Position) : Prop where
  stack : before.stack.frames ≠ [] → after.stack = before.stack
  cursor : after.cursor = before.cursor
  depth : after.depth = before.depth

namespace Restored

variable {first second third : Position}

theorem refl (here : Position) : here.Restored here := ⟨fun _ => rfl, rfl, rfl⟩

theorem trans (h : first.Restored second) (h' : second.Restored third) : first.Restored third where
  -- The stack in the middle is the first one, so it is not empty either.
  stack := by
    intro hne
    have hstack := h.stack hne
    rw [h'.stack (by rwa [hstack]), hstack]
  cursor := h'.cursor.trans h.cursor
  depth := h'.depth.trans h.depth

/-- Inside a template everything is as it was. -/
theorem eq (h : first.Restored second) (hne : first.stack.frames ≠ []) : second = first := by
  obtain ⟨stack, cursor, depth⟩ := second
  obtain ⟨hstack, hcursor, hdepth⟩ := h
  cases hstack hne
  cases hcursor
  cases hdepth
  rfl

end Restored

end Position

namespace Walk

variable {α β : Type}

/-- **A restoring walk** ends where it began, whether it fails or not. -/
def Restoring (walk : Walk α) : Prop := ∀ here : Position, here.Restored (walk here).2

namespace Restoring

variable {walk : Walk α}

theorem ofExcept (result : Except TemplateError α) : Restoring (ofExcept result) :=
  fun here => .refl here

theorem bind (h : Restoring walk) {next : α → Walk β} (hnext : ∀ a, Restoring (next a)) :
    Restoring (walk >>= next) := by
  intro here
  have hfirst := h here
  rw [bind_apply]
  split
  · rename_i a there heq
    rw [heq] at hfirst
    exact hfirst.trans (hnext a there)
  · rename_i e there heq
    rwa [heq] at hfirst

theorem withCursor (h : Restoring walk) (cursor : Nat) : Restoring (withCursor cursor walk) := by
  intro here
  have hbody := h { here with cursor := some cursor }
  exact ⟨hbody.stack, rfl, hbody.depth⟩

/-- The frame that the walk entered is the one that is left, unless it is the last one. -/
theorem within_eq (h : Restoring walk) (frame : Fields Json) (here : Position) :
    (within frame walk here).2 = { here with stack := (here.stack.push frame).popNested } := by
  have hbody := (h { here with stack := here.stack.push frame }).eq (by simp [ResourceStack.push])
  rw [within_apply]
  simp only [hbody]

theorem within (h : Restoring walk) (frame : Fields Json) : Restoring (within frame walk) := by
  intro here
  rw [h.within_eq frame here]
  exact ⟨fun hne => ResourceStack.popNested_push hne frame, rfl, rfl⟩

/-- Below the depth limit a deeper walk leaves what the walk itself leaves one level deeper. -/
theorem descend_eq (h : Restoring walk) {here : Position} (hlt : here.depth < depthLimit) :
    (descend walk here).2 = { (walk { here with depth := here.depth + 1 }).2 with
      depth := here.depth } := by
  have hdepth := (h { here with depth := here.depth + 1 }).depth
  rw [descend_of_lt hlt]
  simp only [hdepth, Nat.add_sub_cancel]

theorem descend (h : Restoring walk) : Restoring (descend walk) := by
  intro here
  by_cases hlt : here.depth < depthLimit
  · have hbody := h { here with depth := here.depth + 1 }
    rw [h.descend_eq hlt]
    exact ⟨hbody.stack, hbody.cursor, rfl⟩
  · rw [descend_of_le (Nat.not_lt.mp hlt)]
    exact .refl here

end Restoring

/-- Both walks are restoring. -/
def Congruence.restoring : Congruence where
  Rel walk walk' := Restoring walk ∧ Restoring walk'
  ofExcept result _ := ⟨.ofExcept result, .ofExcept result⟩
  look _ := ⟨fun here => .refl here, fun here => .refl here⟩
  bind h hnext := ⟨h.1.bind fun a => (hnext a).1, h.2.bind fun a => (hnext a).2⟩
  withCursor cursor h := ⟨h.1.withCursor cursor, h.2.withCursor cursor⟩

end Walk

/-! ### Every level restores its position -/

section Level

variable {sources : Sources} {deeper : Resolver} {resources : Fields Json}
variable (template : ∀ nested parent, (deeper.template nested parent).Restoring)
variable (resource : ∀ target scope, (deeper.resource resources target scope).Restoring)

include template in
theorem Level.replica_restoring (nested properties scope : Fields Json) (cursor : Nat) :
    (Level.replica ⟨sources, deeper, resources⟩ nested properties scope cursor).Restoring :=
  (Walk.Congruence.level_replica .restoring (fun t p => ⟨template t p, template t p⟩) nested
    properties scope cursor).1

include resource in
theorem Level.place_restoring (parent : Option (Fields Json)) (name : String) (value : Json) :
    (Level.place ⟨sources, deeper, resources⟩ parent name value).Restoring :=
  (Walk.Congruence.level_place .restoring (fun t s => ⟨resource t s, resource t s⟩) parent name
    value).1

include resource in
theorem Level.template_restoring (parent : Option (Fields Json)) :
    (Level.template ⟨sources, deeper, resources⟩ parent).Restoring :=
  (Walk.Congruence.level_template .restoring (fun t s => ⟨resource t s, resource t s⟩) parent).1

include template resource in
theorem Level.resource_restoring (target scope : Fields Json) :
    (Level.resource ⟨sources, deeper, resources⟩ target scope).Restoring :=
  (Walk.Congruence.level_resource .restoring (fun t p => ⟨template t p, template t p⟩)
    (fun t s => ⟨resource t s, resource t s⟩) target scope).1

end Level

/-- So many levels of the resolution restore their position. -/
theorem resolver_restoring (sources : Sources) (room : Nat) :
    (∀ template parent, ((resolver sources room).template template parent).Restoring) ∧
      ∀ resources resource scope,
        ((resolver sources room).resource resources resource scope).Restoring := by
  induction room with
  | zero => exact ⟨fun _ _ => .ofExcept _, fun _ _ _ => .ofExcept _⟩
  | succ room ih =>
    obtain ⟨htemplate, hresource⟩ := ih
    constructor
    · intro template parent
      simp only [resolver]
      cases resourcesOf? template with
      | none => exact .ofExcept _
      | some resources =>
        exact ((Level.template_restoring (hresource resources) parent).within resources).descend
    · intro resources resource scope
      exact (Level.resource_restoring htemplate (hresource resources) resource scope).descend

/-- **The resolution of a template is restoring.** -/
theorem walkTemplate_restoring (sources : Sources) (template : Fields Json)
    (parent : Option (Fields Json)) : (walkTemplate sources template parent).Restoring :=
  (resolver_restoring sources (depthLimit + 1)).1 template parent

/-- **The resolution of a resource is restoring.** -/
theorem walkResource_restoring (sources : Sources) (resources resource scope : Fields Json) :
    (walkResource sources resources resource scope).Restoring :=
  (resolver_restoring sources (depthLimit + 1)).2 resources resource scope

/-- On an empty stack the resolution of a template leaves exactly its own resources. -/
theorem walkTemplate_of_empty {here : Position} (hstack : here.stack = .empty)
    (hdepth : here.depth < depthLimit) {template resources : Fields Json}
    (hresources : resourcesOf? template = some resources) (sources : Sources)
    (parent : Option (Fields Json)) :
    (walkTemplate sources template parent here).2 = { here with stack := ⟨[resources]⟩ } := by
  have hbody :
      (Level.template ⟨sources, resolver sources depthLimit, resources⟩ parent).Restoring :=
    Level.template_restoring ((resolver_restoring sources depthLimit).2 resources) parent
  simp only [walkTemplate, resolver, hresources]
  rw [(hbody.within resources).descend_eq hdepth, hbody.within_eq, hstack,
    ResourceStack.popNested_push_empty]

/-- **Resolution restores its position.** Inside a template, the resolution of a template and of a
resource, whether it succeeds or fails at any level, leaves stack, cursor and depth as they were.
From an empty stack, below the depth limit, the resolution of a template leaves exactly the frame of
its own resources, with the same cursor and depth. -/
theorem resolution_restores_position (sources : Sources) (here : Position) :
    (here.stack.frames ≠ [] →
      (∀ template parent, (walkTemplate sources template parent here).2 = here) ∧
        ∀ resources resource scope,
          (walkResource sources resources resource scope here).2 = here) ∧
      ∀ template resources parent, here.stack.frames = [] → here.depth < depthLimit →
        resourcesOf? template = some resources →
          (walkTemplate sources template parent here).2 =
            { here with stack := ⟨[resources]⟩ } := by
  refine ⟨fun hne => ⟨fun template parent => ?_, fun resources resource scope => ?_⟩, ?_⟩
  · exact (walkTemplate_restoring sources template parent here).eq hne
  · exact (walkResource_restoring sources resources resource scope here).eq hne
  · intro template resources parent hempty hdepth hresources
    have hstack : here.stack = .empty := congrArg ResourceStack.mk hempty
    exact walkTemplate_of_empty hstack hdepth hresources sources parent

/-- The group of so many replicas of a nested template file. -/
def replicaGroup (count : Json) (file : String) : Fields Json :=
  [("type", .str ResourceKind.resourceGroup.name),
    ("properties", .obj [("count", count), ("resource_def", .obj [("type", .str file)])])]

/-- The template of some resources. -/
def templateOf (members : Fields Json) : Fields Json := [("resources", .obj members)]

/-- A count that is no integer, two templates below: the position is restored all the same. -/
theorem resolution_restores_position_of_failure :
    let outer := replicaGroup (.ofNat 2) "inner.yaml"
    let inner := templateOf [("vms", .obj (replicaGroup (.str "many") "vm.yaml"))]
    let sources : Sources := ⟨Yaml.read?, [("inner.yaml", .obj inner)], ⟨[], []⟩⟩
    let resources : Fields Json := [("vms", .obj outer)]
    let here : Position := ⟨⟨[resources]⟩, some 3, 5⟩
    ((walkResource sources resources outer []).outcome here = .error (.invalidCount (.str "many")) ∧
        here.stack.frames ≠ [] ∧ (walkResource sources resources outer [] here).2 = here) ∧
      Position.start.stack.frames = [] ∧ Position.start.depth < depthLimit ∧
        (walkTemplate sources (templateOf resources) none .start).2 =
          ⟨⟨[resources]⟩, none, 0⟩ := by
  intro outer inner sources resources here
  have hne : here.stack.frames ≠ [] := by simp [here]
  refine ⟨⟨by cbv, hne, ?_⟩, rfl, by decide, ?_⟩
  · exact ((resolution_restores_position sources here).1 hne).2 _ _ _
  · exact (resolution_restores_position sources .start).2 _ _ _ rfl (by decide) rfl

end HeatPlacement.Heat
