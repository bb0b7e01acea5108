import HeatPlacement.Proofs.Walk.Restoration

/-!
# The resolution as a recursion

The resolution runs on so many levels, one more than the depth limit. No run uses them up, so the
number of levels never shows: the resolution is the fixed point of one level.

* `resolver_eq_resolver`: enough levels are as good as any other number of enough levels
* `Level.whole`: the level above the whole resolution
* `walkTemplate_eq`, `walkResource_eq`: **the resolution satisfies its own recursion**
-/

namespace HeatPlacement.Heat

namespace Walk

/-- Both walks are restoring, and at a depth they are the same. -/
def Congruence.agreeAt (depth : Nat) : Congruence where
  Rel walk walk' :=
    Restoring walk ∧ Restoring walk' ∧
      ∀ here : Position, here.depth = depth → walk here = walk' here
  ofExcept result _ := ⟨.ofExcept result, .ofExcept result, fun _ _ => rfl⟩
  look _ := ⟨fun here => .refl here, fun here => .refl here, fun _ _ => rfl⟩
  bind := by
    rintro α β walk walk' next next' ⟨hwalk, hwalk', hagree⟩ hnext
    refine ⟨hwalk.bind fun a => (hnext a).1, hwalk'.bind fun a => (hnext a).2.1, ?_⟩
    intro here hdepth
    have hthere := (hwalk here).depth
    rw [bind_apply, bind_apply, ← hagree here hdepth]
    split
    · rename_i a there heq
      rw [heq] at hthere
      exact (hnext a).2.2 there (hthere.trans hdepth)
    · rfl
  withCursor := by
    rintro α walk walk' cursor ⟨hwalk, hwalk', hagree⟩
    refine ⟨hwalk.withCursor cursor, hwalk'.withCursor cursor, ?_⟩
    intro here hdepth
    rw [withCursor_apply, withCursor_apply, hagree { here with cursor := some cursor } hdepth]

/-- Walks that agree one level deeper agree as deeper walks. -/
theorem descend_congr {α : Type} {walk walk' : Walk α} {here : Position}
    (h : here.depth < depthLimit →
      walk { here with depth := here.depth + 1 } = walk' { here with depth := here.depth + 1 }) :
    descend walk here = descend walk' here := by
  by_cases hlt : here.depth < depthLimit
  · rw [descend_of_lt hlt, descend_of_lt hlt, h hlt]
  · rw [descend_of_le (Nat.not_lt.mp hlt), descend_of_le (Nat.not_lt.mp hlt)]

end Walk

/-- **Enough levels are enough.** From a depth within the limit, any two numbers of levels that
reach beyond the limit resolve alike. -/
theorem resolver_eq_resolver (sources : Sources) {room room' depth : Nat}
    (hdepth : depth ≤ depthLimit) (hroom : depthLimit < depth + room)
    (hroom' : depthLimit < depth + room') :
    (∀ template parent (here : Position), here.depth = depth →
      (resolver sources room).template template parent here =
        (resolver sources room').template template parent here) ∧
      ∀ resources resource scope (here : Position), here.depth = depth →
        (resolver sources room).resource resources resource scope here =
          (resolver sources room').resource resources resource scope here := by
  -- The depth grows as the levels go down; at the limit, where the induction would end, no level is
  -- looked at any more.
  induction room generalizing room' depth with
  | zero => omega
  | succ room ih =>
    obtain ⟨room', rfl⟩ : ∃ n, room' = n + 1 := ⟨room' - 1, by omega⟩
    have hbelow : depth < depthLimit → ∀ resources,
        (∀ template parent, (Walk.Congruence.agreeAt (depth + 1)).Rel
          ((resolver sources room).template template parent)
          ((resolver sources room').template template parent)) ∧
        ∀ resource scope, (Walk.Congruence.agreeAt (depth + 1)).Rel
          ((resolver sources room).resource resources resource scope)
          ((resolver sources room').resource resources resource scope) := by
      intro hlt resources
      have hroom : depthLimit < depth + 1 + room := by omega
      have hroom' : depthLimit < depth + 1 + room' := by omega
      obtain ⟨htemplate, hresource⟩ := ih hlt hroom hroom'
      exact ⟨fun t p => ⟨(resolver_restoring sources room).1 t p,
          (resolver_restoring sources room').1 t p, htemplate t p⟩,
        fun r s => ⟨(resolver_restoring sources room).2 resources r s,
          (resolver_restoring sources room').2 resources r s, hresource resources r s⟩⟩
    constructor
    · intro template parent here hhere
      simp only [resolver]
      cases resourcesOf? template with
      | none => rfl
      | some resources =>
        refine Walk.descend_congr fun hlt => ?_
        have hbelow := (hbelow (hhere ▸ hlt) resources).2
        rw [Walk.within_apply, Walk.within_apply,
          (Walk.Congruence.level_template _ hbelow parent).2.2 _ (congrArg (· + 1) hhere)]
    · intro resources resource scope here hhere
      refine Walk.descend_congr fun hlt => ?_
      obtain ⟨htemplate, hresource⟩ := hbelow (hhere ▸ hlt) resources
      exact (Walk.Congruence.level_resource _ htemplate hresource resource scope).2.2 _
        (congrArg (· + 1) hhere)

/-- The level above the whole resolution. -/
def Level.whole (sources : Sources) (resources : Fields Json) : Level :=
  ⟨sources, ⟨walkTemplate sources, walkResource sources⟩, resources⟩

/-- Below the depth limit, the levels of the resolution but one are as good as all of them. -/
theorem resolver_agreeAt (sources : Sources) (resources : Fields Json) {depth : Nat}
    (h : depth < depthLimit) :
    (∀ template parent, (Walk.Congruence.agreeAt (depth + 1)).Rel
      ((resolver sources depthLimit).template template parent)
      (walkTemplate sources template parent)) ∧
      ∀ resource scope, (Walk.Congruence.agreeAt (depth + 1)).Rel
        ((resolver sources depthLimit).resource resources resource scope)
        (walkResource sources resources resource scope) := by
  have hroom : depthLimit < depth + 1 + depthLimit := by omega
  have hroom' : depthLimit < depth + 1 + (depthLimit + 1) := by omega
  obtain ⟨htemplate, hresource⟩ := resolver_eq_resolver sources h hroom hroom'
  exact ⟨fun t p => ⟨(resolver_restoring sources depthLimit).1 t p,
      walkTemplate_restoring sources t p, htemplate t p⟩,
    fun r s => ⟨(resolver_restoring sources depthLimit).2 resources r s,
      walkResource_restoring sources resources r s, hresource resources r s⟩⟩

/-- **The recursion of the resolution of a template.** -/
theorem walkTemplate_eq (sources : Sources) (template : Fields Json)
    (parent : Option (Fields Json)) :
    walkTemplate sources template parent =
      match resourcesOf? template with
      | none => throw .missingResources
      | some resources =>
        Walk.descend (Walk.within resources ((Level.whole sources resources).template parent)) := by
  funext here
  simp only [walkTemplate, resolver]
  cases resourcesOf? template with
  | none => rfl
  | some resources =>
    refine Walk.descend_congr fun hlt => ?_
    have hbelow := (resolver_agreeAt sources resources hlt).2
    rw [Walk.within_apply, Walk.within_apply,
      (Walk.Congruence.level_template _ hbelow parent).2.2 _ rfl]
    rfl

/-- **The recursion of the resolution of a resource.** -/
theorem walkResource_eq (sources : Sources) (resources resource scope : Fields Json) :
    walkResource sources resources resource scope =
      Walk.descend ((Level.whole sources resources).resource resource scope) := by
  funext here
  refine Walk.descend_congr fun hlt => ?_
  obtain ⟨htemplate, hresource⟩ := resolver_agreeAt sources resources hlt
  exact (Walk.Congruence.level_resource _ htemplate hresource resource scope).2.2 _ rfl

end HeatPlacement.Heat
