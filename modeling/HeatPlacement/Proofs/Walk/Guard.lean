import HeatPlacement.Proofs.Walk.Outcome

/-!
# The depth guard

A template and a resource are resolved one level deeper than what asks for them, and at the depth
limit they fail instead. The depth has no other use: a run at a greater depth is the run at a
smaller one, or it is cut off.

* `Walk.Reaches`: what a run comes to; **no failure is lost** on the way back (`Reaches.error`)
* `Call`: a template or a resource to be resolved; `CutOff`: a run that comes to a call at the limit
* `Call.outcome_eq_recursionLimit_iff`: **the limit is the outcome** iff the run is cut off
* `Call.walk_sameOrCutOff`: **a smaller depth changes nothing** but where the run is cut off
-/

namespace HeatPlacement.Heat

/-! ### Parts of a run -/

namespace Walk

variable {α β : Type}

/-- **What a run comes to**: run from its position, the walk runs `part` from `there`. One
constructor for each step that runs something else. -/
inductive Reaches (part : Walk β) (there : Position) : {α : Type} → Walk α → Position → Prop where
  | self : Reaches part there part there
  /-- What the first walk of a sequence comes to. -/
  | first {α γ : Type} {walk : Walk α} {here : Position} (next : α → Walk γ) :
    Reaches part there walk here → Reaches part there (walk >>= next) here
  /-- What the next walk comes to, once the first one has answered. -/
  | next {α γ : Type} {walk : Walk α} {next : α → Walk γ} {here after : Position} {a : α} :
    walk here = (.ok a, after) → Reaches part there (next a) after →
      Reaches part there (walk >>= next) here
  | within {α : Type} {walk : Walk α} {here : Position} (frame : Fields Json) :
    Reaches part there walk { here with stack := here.stack.push frame } →
      Reaches part there (within frame walk) here
  | withCursor {α : Type} {walk : Walk α} {here : Position} (cursor : Nat) :
    Reaches part there walk { here with cursor := some cursor } →
      Reaches part there (withCursor cursor walk) here
  | descend {α : Type} {walk : Walk α} {here : Position} :
    here.depth < depthLimit → Reaches part there walk { here with depth := here.depth + 1 } →
      Reaches part there (descend walk) here

/-- **No failure is lost**: a run that comes to a failure fails with it. -/
theorem Reaches.error {part : Walk β} {there here : Position} {walk : Walk α} {e : TemplateError}
    (h : Reaches part there walk here) (he : part.outcome there = .error e) :
    walk.outcome here = .error e := by
  induction h with
  | self => exact he
  | @first _ _ walk here next _ ih =>
    obtain ⟨⟨result, after⟩, hwalk⟩ : ∃ r, walk here = r := ⟨_, rfl⟩
    rw [outcome, hwalk] at ih
    -- The first walk fails, so the next one is not run.
    cases ih
    rw [outcome, bind_apply, hwalk]
  | next hwalk _ ih =>
    rw [outcome, bind_apply, hwalk]
    exact ih
  | within _ _ ih => exact ih
  | withCursor _ _ ih => exact ih
  | descend hlt _ ih =>
    rw [outcome, descend_of_lt hlt]
    exact ih

end Walk

/-! ### Calls of the resolution -/

/-- What the resolution is asked for. -/
inductive Call where
  /-- A template, with the properties that are injected. -/
  | ofTemplate (template : Fields Json) (parent : Option (Fields Json))
  /-- A resource, with the resources beside it and the scope of its parameters. -/
  | ofResource (resources resource scope : Fields Json)

namespace Call

/-- What a call answers. -/
abbrev Answer : Call → Type
  | .ofTemplate _ _ => Fields Json
  | .ofResource _ _ _ => Json

/-- The resolution that is asked for. -/
def walk (sources : Sources) : (call : Call) → Walk call.Answer
  | .ofTemplate template parent => walkTemplate sources template parent
  | .ofResource resources resource scope => walkResource sources resources resource scope

/-- What is resolved one level deeper. -/
def body (sources : Sources) : (call : Call) → Walk call.Answer
  | .ofTemplate template parent =>
    match resourcesOf? template with
    | none => throw .missingResources
    | some resources => Walk.within resources ((Level.whole sources resources).template parent)
  | .ofResource resources resource scope => (Level.whole sources resources).resource resource scope

/-- Whether the depth is looked at: a template without resources fails before. -/
def Guarded : Call → Prop
  | .ofTemplate template _ => resourcesOf? template ≠ none
  | .ofResource _ _ _ => True

theorem walk_of_guarded {call : Call} (h : call.Guarded) (sources : Sources) :
    call.walk sources = Walk.descend (call.body sources) := by
  cases call with
  | ofTemplate template parent =>
    obtain ⟨resources, hresources⟩ := Option.ne_none_iff_exists'.mp h
    simp only [walk, body, walkTemplate_eq, hresources]
  | ofResource resources resource scope => exact walkResource_eq sources resources resource scope

theorem walk_of_not_guarded {call : Call} (h : ¬ call.Guarded) (sources : Sources) :
    call.walk sources = Walk.ofExcept (.error .missingResources) := by
  cases call with
  | ofTemplate template parent =>
    have hnone : resourcesOf? template = none := not_not.mp h
    simp only [walk, walkTemplate_eq, hnone]
    rfl
  | ofResource resources resource scope => exact absurd trivial h

theorem walk_restoring (sources : Sources) (call : Call) : (call.walk sources).Restoring := by
  cases call with
  | ofTemplate template parent => exact walkTemplate_restoring sources template parent
  | ofResource resources resource scope =>
    exact walkResource_restoring sources resources resource scope

/-- At the depth limit a call that looks at the depth fails. -/
theorem outcome_of_le {call : Call} (h : call.Guarded) {here : Position}
    (hdepth : depthLimit ≤ here.depth) (sources : Sources) :
    (call.walk sources).outcome here = .error .recursionLimit := by
  rw [walk_of_guarded h, Walk.outcome, Walk.descend_of_le hdepth]

/-- **Induction from the depth limit up**: what holds of a call if it holds of every call one level
deeper, holds of every call. -/
theorem induction_on_depth {P : Nat → Call → Prop}
    (limit : ∀ depth call, depthLimit ≤ depth → P depth call)
    (deeper : ∀ depth call, depth < depthLimit → (∀ inner, P (depth + 1) inner) → P depth call)
    (depth : Nat) (call : Call) : P depth call := by
  -- The induction is on the room that is left below the limit.
  obtain ⟨room, hroom⟩ : ∃ room, depthLimit ≤ depth + room := ⟨depthLimit, Nat.le_add_left _ _⟩
  induction room generalizing depth call with
  | zero => exact limit depth call hroom
  | succ room ih =>
    by_cases hlt : depth < depthLimit
    · exact deeper depth call hlt fun inner => ih (depth + 1) inner (by omega)
    · exact limit depth call (Nat.le_of_not_lt hlt)

end Call

/-- **A congruence carries over** from the calls one level deeper to what a call does there, if it
holds inside frames as well. -/
theorem Walk.Congruence.body (R : Walk.Congruence) {sources : Sources}
    (h : ∀ inner : Call, R.Rel (inner.walk sources) (inner.walk sources))
    (hwithin : ∀ {walk : Walk (Fields Json)} (frame : Fields Json), R.Rel walk walk →
      R.Rel (Walk.within frame walk) (Walk.within frame walk))
    {call : Call} (hguarded : call.Guarded) :
    R.Rel (call.body sources) (call.body sources) := by
  cases call with
  | ofTemplate template parent =>
    obtain ⟨resources, hresources⟩ := Option.ne_none_iff_exists'.mp hguarded
    simp only [Call.body, hresources]
    exact hwithin resources (R.level_template (fun r s => h (.ofResource resources r s)) parent)
  | ofResource resources resource scope =>
    exact R.level_resource (fun t p => h (.ofTemplate t p))
      (fun r s => h (.ofResource resources r s)) resource scope

/-! ### Runs that are cut off -/

/-- **A run that is cut off**: it comes to a call at the depth limit. -/
def CutOff (sources : Sources) {α : Type} (walk : Walk α) (here : Position) : Prop :=
  ∃ (inner : Call) (there : Position), Walk.Reaches (inner.walk sources) there walk here ∧
    inner.Guarded ∧ depthLimit ≤ there.depth

namespace Walk

variable {α β : Type}

/-- At a depth, the walk fails with the depth limit only where it is cut off. -/
structure CutsOff (sources : Sources) (depth : Nat) (walk : Walk α) : Prop where
  restoring : Restoring walk
  cutOff : ∀ here : Position, here.depth = depth →
    walk.outcome here = .error .recursionLimit → CutOff sources walk here

/-- Sequences fail with the depth limit only where they are cut off, if their walks do. -/
def Congruence.cutsOff (sources : Sources) (depth : Nat) : Congruence where
  Rel walk _ := CutsOff sources depth walk
  ofExcept result hresult := ⟨.ofExcept result, fun _ _ h => absurd h hresult⟩
  look _ := ⟨fun here => .refl here, fun _ _ h => nomatch h⟩
  bind := by
    rintro α β walk _ next _ hwalk hnext
    refine ⟨hwalk.restoring.bind fun a => (hnext a).restoring, fun here hdepth h => ?_⟩
    have hafter := (hwalk.restoring here).depth
    obtain ⟨⟨result, after⟩, hresult⟩ : ∃ r, walk here = r := ⟨_, rfl⟩
    rw [hresult] at hafter
    rw [outcome, bind_apply, hresult] at h
    -- The failure is that of the first walk, or that of the next one after it.
    cases result with
    | error e =>
      obtain rfl : e = .recursionLimit := Except.error.inj h
      have he : walk.outcome here = .error .recursionLimit := by rw [outcome, hresult]
      obtain ⟨inner, there, hreaches, hinner⟩ := hwalk.cutOff here hdepth he
      exact ⟨inner, there, .first next hreaches, hinner⟩
    | ok a =>
      obtain ⟨inner, there, hreaches, hinner⟩ := (hnext a).cutOff after (hafter.trans hdepth) h
      exact ⟨inner, there, .next hresult hreaches, hinner⟩
  withCursor := by
    rintro α walk _ cursor hwalk
    refine ⟨hwalk.restoring.withCursor cursor, fun here hdepth h => ?_⟩
    obtain ⟨inner, there, hreaches, hinner⟩ :=
      hwalk.cutOff { here with cursor := some cursor } hdepth h
    exact ⟨inner, there, .withCursor cursor hreaches, hinner⟩

theorem CutsOff.within {sources : Sources} {depth : Nat} {walk : Walk α}
    (h : CutsOff sources depth walk) (frame : Fields Json) :
    CutsOff sources depth (within frame walk) := by
  refine ⟨h.restoring.within frame, fun here hdepth herror => ?_⟩
  obtain ⟨inner, there, hreaches, hinner⟩ :=
    h.cutOff { here with stack := here.stack.push frame } hdepth herror
  exact ⟨inner, there, .within frame hreaches, hinner⟩

theorem CutsOff.descend {sources : Sources} {depth : Nat} {walk : Walk α}
    (h : CutsOff sources (depth + 1) walk) (hlt : depth < depthLimit) :
    CutsOff sources depth (descend walk) := by
  refine ⟨h.restoring.descend, fun here hdepth herror => ?_⟩
  have hhere : here.depth < depthLimit := hdepth ▸ hlt
  rw [outcome, descend_of_lt hhere] at herror
  obtain ⟨inner, there, hreaches, hinner⟩ :=
    h.cutOff { here with depth := here.depth + 1 } (congrArg (· + 1) hdepth) herror
  exact ⟨inner, there, .descend hhere hreaches, hinner⟩

end Walk

/-- Every call fails with the depth limit only where it is cut off. -/
theorem Call.walk_cutsOff (sources : Sources) (depth : Nat) (call : Call) :
    Walk.CutsOff sources depth (call.walk sources) := by
  induction depth, call using Call.induction_on_depth with
  | limit depth call hdepth =>
    refine ⟨call.walk_restoring sources, fun here hhere h => ?_⟩
    by_cases hguarded : call.Guarded
    · -- The call itself is the one at the limit.
      exact ⟨call, here, .self, hguarded, hhere ▸ hdepth⟩
    · rw [Call.walk_of_not_guarded hguarded] at h
      cases h
  | deeper depth call hlt ih =>
    by_cases hguarded : call.Guarded
    · rw [Call.walk_of_guarded hguarded]
      refine Walk.CutsOff.descend ?_ hlt
      exact Walk.Congruence.body (.cutsOff sources (depth + 1)) ih (fun frame h => h.within frame)
        hguarded
    · rw [Call.walk_of_not_guarded hguarded]
      exact ⟨.ofExcept _, fun _ _ h => nomatch h⟩

/-- **The depth limit is the outcome** of a resolution iff it comes to a call at the limit. -/
theorem Call.outcome_eq_recursionLimit_iff (sources : Sources) (call : Call) (here : Position) :
    (call.walk sources).outcome here = .error .recursionLimit ↔
      CutOff sources (call.walk sources) here := by
  constructor
  · exact (call.walk_cutsOff sources here.depth).cutOff here rfl
  · rintro ⟨inner, there, hreaches, hguarded, hdepth⟩
    exact hreaches.error (Call.outcome_of_le hguarded hdepth sources)

/-! ### Runs at a smaller depth -/

namespace Walk

variable {α β : Type}

/-- From a depth the walk does what it does from a smaller one, or it fails with the depth limit. -/
structure SameOrCutOff (smaller depth : Nat) (walk : Walk α) : Prop where
  restoring : Restoring walk
  same : ∀ here : Position, here.depth = depth → walk.outcome here = .error .recursionLimit ∨
    walk { here with depth := smaller } =
      (walk.outcome here, { (walk here).2 with depth := smaller })

/-- Sequences do the same from a smaller depth or are cut off, if their walks do. -/
def Congruence.sameOrCutOff (smaller depth : Nat) : Congruence where
  Rel walk _ := SameOrCutOff smaller depth walk
  ofExcept result _ := ⟨.ofExcept result, fun _ _ => .inr rfl⟩
  look _ := ⟨fun here => .refl here, fun _ _ => .inr rfl⟩
  bind := by
    rintro α β walk _ next _ hwalk hnext
    refine ⟨hwalk.restoring.bind fun a => (hnext a).restoring, fun here hdepth => ?_⟩
    have hafter := (hwalk.restoring here).depth
    have hsame := hwalk.same here hdepth
    obtain ⟨⟨result, after⟩, hresult⟩ : ∃ r, walk here = r := ⟨_, rfl⟩
    rw [hresult] at hafter
    rw [outcome, hresult] at hsame
    rw [outcome, bind_apply, bind_apply, hresult]
    rcases hsame with rfl | hsame
    · exact .inl rfl
    · rw [hsame]
      cases result with
      | error e => exact .inr rfl
      | ok a => exact (hnext a).same after (hafter.trans hdepth)
  withCursor := by
    rintro α walk _ cursor hwalk
    refine ⟨hwalk.restoring.withCursor cursor, fun here hdepth => ?_⟩
    refine (hwalk.same { here with cursor := some cursor } hdepth).imp_right fun hsame => ?_
    rw [withCursor_apply, hsame]
    rfl

theorem SameOrCutOff.within {smaller depth : Nat} {walk : Walk α}
    (h : SameOrCutOff smaller depth walk) (frame : Fields Json) :
    SameOrCutOff smaller depth (within frame walk) := by
  refine ⟨h.restoring.within frame, fun here hdepth => ?_⟩
  have hsame := h.same { here with stack := here.stack.push frame } hdepth
  refine hsame.imp_right fun hsame => ?_
  rw [within_apply, hsame]
  rfl

theorem SameOrCutOff.descend {smaller depth : Nat} {walk : Walk α}
    (h : SameOrCutOff (smaller + 1) (depth + 1) walk) (hle : smaller ≤ depth)
    (hlt : depth < depthLimit) : SameOrCutOff smaller depth (descend walk) := by
  refine ⟨h.restoring.descend, fun here hdepth => ?_⟩
  have hhere : here.depth < depthLimit := hdepth ▸ hlt
  have hsmaller : smaller < depthLimit := Nat.lt_of_le_of_lt hle hlt
  have hsame := h.same { here with depth := here.depth + 1 } (congrArg (· + 1) hdepth)
  rw [outcome_descend hhere]
  refine hsame.imp_right fun hsame => ?_
  have hrun : Walk.descend walk { here with depth := smaller } = _ := descend_of_lt hsmaller walk
  rw [hrun, hsame, descend_of_lt hhere]
  rfl

end Walk

/-- **A smaller depth changes nothing** but where the resolution is cut off. -/
theorem Call.walk_sameOrCutOff (sources : Sources) (depth : Nat) (call : Call) :
    ∀ smaller ≤ depth, Walk.SameOrCutOff smaller depth (call.walk sources) := by
  -- The smaller depth is not fixed: it grows with the depth from level to level.
  induction depth, call using Call.induction_on_depth with
  | limit depth call hdepth =>
    intro smaller _
    refine ⟨call.walk_restoring sources, fun here hhere => ?_⟩
    by_cases hguarded : call.Guarded
    · exact .inl (Call.outcome_of_le hguarded (hhere ▸ hdepth) sources)
    · rw [Call.walk_of_not_guarded hguarded]
      exact .inr rfl
  | deeper depth call hlt ih =>
    intro smaller hle
    have ih : ∀ inner : Call, Walk.SameOrCutOff (smaller + 1) (depth + 1) (inner.walk sources) :=
      fun inner => ih inner (smaller + 1) (Nat.succ_le_succ hle)
    by_cases hguarded : call.Guarded
    · rw [Call.walk_of_guarded hguarded]
      refine Walk.SameOrCutOff.descend ?_ hle hlt
      exact Walk.Congruence.body (.sameOrCutOff (smaller + 1) (depth + 1)) ih
        (fun frame h => h.within frame) hguarded
    · rw [Call.walk_of_not_guarded hguarded]
      exact ⟨.ofExcept _, fun _ _ => .inr rfl⟩

/-- **The depth only cuts off.** From two positions that differ in the depth, a template and a
resource are resolved alike, with the same answer or failure, unless the depth limit is the outcome
at the greater depth; and where it is the outcome at the smaller depth, it is at the greater one. No
inner run loses the depth limit: the limit is the outcome of a run that comes to a call with this
outcome, and of no run but those that come to a call at the limit. -/
theorem depth_only_cuts_off (sources : Sources) (call : Call) (here : Position) :
    (∀ smaller ≤ here.depth,
      ((call.walk sources).outcome here ≠ .error .recursionLimit →
        (call.walk sources).outcome { here with depth := smaller } =
          (call.walk sources).outcome here) ∧
      ((call.walk sources).outcome { here with depth := smaller } = .error .recursionLimit →
        (call.walk sources).outcome here = .error .recursionLimit)) ∧
    (∀ (inner : Call) (there : Position),
      Walk.Reaches (inner.walk sources) there (call.walk sources) here →
        (inner.walk sources).outcome there = .error .recursionLimit →
          (call.walk sources).outcome here = .error .recursionLimit) ∧
    ((call.walk sources).outcome here = .error .recursionLimit ↔
      CutOff sources (call.walk sources) here) := by
  refine ⟨fun smaller hle => ?_, fun inner there hreaches h => hreaches.error h,
    call.outcome_eq_recursionLimit_iff sources here⟩
  have hsame : (call.walk sources).outcome here ≠ .error .recursionLimit →
      (call.walk sources).outcome { here with depth := smaller } =
        (call.walk sources).outcome here := by
    intro h
    have hrun := (call.walk_sameOrCutOff sources here.depth smaller hle).same here rfl
    rw [Walk.outcome, hrun.resolve_left h]
  refine ⟨hsame, fun h => ?_⟩
  by_contra hne
  rw [hsame hne] at h
  exact hne h

/-- The template of one group of replicas of a file. -/
def replicaTemplate (file : String) : Fields Json :=
  templateOf [("again", .obj (replicaGroup (.ofNat 1) file))]

/-- Four levels below the limit a replica of a server fits, so that it does outside every template.
A group of replicas of its own file is cut off there, and two levels deeper as well. -/
theorem depth_only_cuts_off_of_replicas :
    let server : Fields Json := templateOf [("vm", .obj [("type", .str ResourceKind.server.name)])]
    let sources : Sources :=
      ⟨Yaml.read?, [("vm.yaml", .obj server), ("loop.yaml", .obj (replicaTemplate "loop.yaml"))],
        ⟨[], []⟩⟩
    let fits : Call := .ofTemplate (replicaTemplate "vm.yaml") none
    let loops : Call := .ofTemplate (replicaTemplate "loop.yaml") none
    let high : Position := ⟨.empty, none, 28⟩
    let deep : Position := ⟨.empty, none, 30⟩
    ((fits.walk sources).outcome high ≠ .error .recursionLimit ∧
        (fits.walk sources).outcome .start = (fits.walk sources).outcome high) ∧
      ((loops.walk sources).outcome high = .error .recursionLimit ∧
        (loops.walk sources).outcome deep = .error .recursionLimit) ∧
      ∃ inner there, Walk.Reaches (Call.walk sources inner) there (loops.walk sources) deep ∧
        (Call.walk sources inner).outcome there = .error .recursionLimit ∧
          (loops.walk sources).outcome deep = .error .recursionLimit := by
  intro server sources fits loops high deep
  have hfits : (fits.walk sources).outcome high ≠ .error .recursionLimit := by decide +kernel
  have hloops : (loops.walk sources).outcome high = .error .recursionLimit := by cbv
  have hsame := ((depth_only_cuts_off sources fits high).1 0 (by decide)).1 hfits
  have hdeep := ((depth_only_cuts_off sources loops deep).1 28 (by decide)).2 hloops
  obtain ⟨inner, there, hreaches, hguarded, hdepth⟩ :=
    (depth_only_cuts_off sources loops deep).2.2.mp hdeep
  have hinner := Call.outcome_of_le hguarded hdepth sources
  exact ⟨⟨hfits, hsame⟩, ⟨hloops, hdeep⟩, inner, there, hreaches, hinner,
    (depth_only_cuts_off sources loops deep).2.1 inner there hreaches hinner⟩

end HeatPlacement.Heat
