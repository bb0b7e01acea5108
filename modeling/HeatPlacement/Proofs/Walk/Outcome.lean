import HeatPlacement.Proofs.Fields
import HeatPlacement.Proofs.Walk.Recursion

/-!
# Outcomes

Inside a template a restoring walk comes back to where it was, so that the outcome of a sequence of
walks is the sequence of their outcomes, all at one position.

* `mapM_eq_ok_iff`: when a list of computations succeeds, and with which values
* `Walk.outcome_bind`, `Walk.outcome_foldlM_extend`: sequences and folds at one position
* `Position.inside`: where the resources of a template are resolved
* `memberResolution`, `given`: how a resource of a template is resolved, and the entries that some
  of them give to the result, in order
* `walkTemplate_outcome`: **the result of a template** binds the entries that its resources give
* `walkTemplate_interpreted`: every entry of a result is an interpreted resource
-/

namespace HeatPlacement.Heat

/-! ### Lists of computations -/

section Results

variable {α β ε : Type}

/-- A mapped computation succeeds iff the computation does. -/
theorem map_eq_ok_iff {result : Except ε α} {f : α → β} {b : β} :
    f <$> result = .ok b ↔ ∃ a, result = .ok a ∧ f a = b := by
  constructor
  · intro h
    cases result with
    | error e => cases h
    | ok a => exact ⟨a, rfl, Except.ok.inj h⟩
  · rintro ⟨a, rfl, rfl⟩
    rfl

/-- Computations that all succeed give the list of their values. -/
theorem mapM_eq_ok {items : List α} {f : α → Except ε β} {g : α → β}
    (h : ∀ a ∈ items, f a = .ok (g a)) : items.mapM f = .ok (items.map g) := by
  induction items with
  | nil => rfl
  | cons item rest ih =>
    rw [List.mapM_cons, h item List.mem_cons_self, ih fun a ha => h a (List.mem_cons_of_mem _ ha)]
    rfl

/-- **A list of computations succeeds** iff each of them does. -/
theorem mapM_eq_ok_iff [Inhabited β] {items : List α} {f : α → Except ε β} {values : List β} :
    items.mapM f = .ok values ↔
      ∃ g : α → β, (∀ a ∈ items, f a = .ok (g a)) ∧ values = items.map g := by
  constructor
  · intro h
    refine ⟨fun a => (f a).toOption.getD default, ?_⟩
    induction items generalizing values with
    | nil =>
      cases h
      exact ⟨fun a ha => absurd ha List.not_mem_nil, rfl⟩
    | cons item rest ih =>
      rw [List.mapM_cons] at h
      cases hitem : f item with
      | error e =>
        rw [hitem] at h
        cases h
      | ok value =>
        cases hrest : rest.mapM f with
        | error e =>
          rw [hitem, hrest] at h
          cases h
        | ok tail =>
          rw [hitem, hrest] at h
          cases h
          obtain ⟨hall, htail⟩ := ih hrest
          refine ⟨fun a ha => ?_, ?_⟩
          · rcases List.mem_cons.mp ha with rfl | ha
            · simp only [hitem, Except.toOption, Option.getD_some]
            · exact hall a ha
          · rw [List.map_cons, ← htail, hitem]
            rfl
  · rintro ⟨g, hall, rfl⟩
    exact mapM_eq_ok hall

end Results

namespace Walk

variable {α β : Type} {here : Position}

@[simp] theorem outcome_pure (a : α) : outcome (pure a) here = .ok a := rfl

@[simp] theorem outcome_ofExcept (result : Except TemplateError α) :
    outcome (ofExcept result) here = result := rfl

@[simp] theorem outcome_look (scopes : Scopes) :
    outcome (look scopes) here = .ok ⟨scopes, here.stack, here.cursor⟩ := rfl

theorem outcome_withCursor (cursor : Nat) (walk : Walk α) :
    outcome (withCursor cursor walk) here = walk.outcome { here with cursor := some cursor } := rfl

theorem outcome_within (frame : Fields Json) (walk : Walk α) :
    outcome (within frame walk) here =
      walk.outcome { here with stack := here.stack.push frame } := rfl

theorem outcome_descend (h : here.depth < depthLimit) (walk : Walk α) :
    outcome (descend walk) here = walk.outcome { here with depth := here.depth + 1 } := by
  rw [outcome, descend_of_lt h, outcome]

/-- A walk that comes back is followed by the next one at the same position. -/
theorem outcome_bind_of_eq {walk : Walk α} (h : (walk here).2 = here) (next : α → Walk β) :
    outcome (walk >>= next) here = walk.outcome here >>= fun a => (next a).outcome here := by
  obtain ⟨⟨result, there⟩, hresult⟩ : ∃ r, walk here = r := ⟨_, rfl⟩
  rw [hresult] at h
  cases h
  rw [outcome, bind_apply, outcome, hresult]
  cases result <;> rfl

/-- **Sequences at one position**: inside a template, a restoring walk is followed by the next one
where it began. -/
theorem outcome_bind {walk : Walk α} (h : Restoring walk) (hne : here.stack.frames ≠ [])
    (next : α → Walk β) :
    outcome (walk >>= next) here = walk.outcome here >>= fun a => (next a).outcome here :=
  outcome_bind_of_eq ((h here).eq hne) next

theorem outcome_map (f : α → β) (walk : Walk α) :
    outcome (f <$> walk) here = f <$> walk.outcome here := by
  obtain ⟨⟨result, there⟩, hresult⟩ : ∃ r, walk here = r := ⟨_, rfl⟩
  rw [map_eq_pure_bind, outcome, bind_apply, outcome, hresult]
  cases result <;> rfl

/-- **Folds at one position**: binding what restoring walks give, one walk after another, is binding
all that they give. -/
theorem outcome_foldlM_extend {give : α → Walk (Fields β)} (h : ∀ a, Restoring (give a))
    (hne : here.stack.frames ≠ []) (items : List α) (start : Fields β) :
    outcome (items.foldlM (fun done item => do
        let entries ← give item
        pure (Fields.extend done entries)) start) here =
      (fun parts => Fields.extend start parts.flatten) <$>
        items.mapM fun item => (give item).outcome here := by
  -- Every step comes back, so the rest of the fold starts at the same position.
  induction items generalizing start with
  | nil => rfl
  | cons item rest ih =>
    have hstep : ∀ a, Restoring (do
        let entries ← give a
        pure (Fields.extend start entries)) := fun a => (h a).bind fun _ => .ofExcept _
    rw [List.foldlM_cons, outcome_bind (hstep item) hne, outcome_bind (h item) hne, List.mapM_cons]
    cases (give item).outcome here with
    | error e => rfl
    | ok entries =>
      show outcome (rest.foldlM _ (Fields.extend start entries)) here = _
      rw [ih]
      cases rest.mapM fun item => (give item).outcome here with
      | error e => rfl
      | ok parts =>
        show Except.ok (Fields.extend (Fields.extend start entries) parts.flatten) =
          Except.ok (Fields.extend start (entries :: parts).flatten)
        rw [List.flatten_cons, Fields.extend_append]

end Walk

/-! ### The result of a template -/

/-- Where the resources of a template are resolved. -/
def Position.inside (here : Position) (resources : Fields Json) : Position :=
  { here with stack := here.stack.push resources, depth := here.depth + 1 }

theorem Position.inside_ne_nil (here : Position) (resources : Fields Json) :
    (here.inside resources).stack.frames ≠ [] := List.cons_ne_nil _ _

/-- The own properties of a resource with those injected into its template. -/
def mergedProperties (parent : Option (Fields Json)) (resource : Fields Json) : Fields Json :=
  (parent.map (mergeParent (propertiesOf resource))).getD (propertiesOf resource)

/-- The resolution of a resource of a template: with its merged properties, which are also the scope
of its own references. -/
def memberResolution (sources : Sources) (members : Fields Json) (parent : Option (Fields Json))
    (here : Position) (resource : Fields Json) : Except TemplateError Json :=
  let merged := mergedProperties parent resource
  (walkResource sources members (Fields.insert resource "properties" (.obj merged)) merged).outcome
    here

/-- What one resource of a template gives to the result. -/
def givenBy (sources : Sources) (members : Fields Json) (parent : Option (Fields Json))
    (here : Position) (member : String × Json) : Except TemplateError (Fields Json) :=
  ((Level.whole sources members).place parent member.1 member.2).outcome here

/-- What some resources of a template give to the result, in order, before a later entry replaces an
earlier one with its name. -/
def given (sources : Sources) (members : Fields Json) (parent : Option (Fields Json))
    (here : Position) (part : Fields Json) : Except TemplateError (Fields Json) :=
  List.flatten <$> part.mapM (givenBy sources members parent here)

theorem Level.whole_place_restoring (sources : Sources) (resources : Fields Json)
    (parent : Option (Fields Json)) (name : String) (value : Json) :
    ((Level.whole sources resources).place parent name value).Restoring :=
  Level.place_restoring (walkResource_restoring sources resources) parent name value

section Given

variable {sources : Sources} {members : Fields Json} {parent : Option (Fields Json)}
  {here : Position}

/-- A resource that is not interpreted gives nothing, and neither does a server group at the top. -/
theorem givenBy_of_unplaced {member : String × Json}
    (h : ∀ kind, ResourceKind.ofValue? member.2 = some kind → kind = .serverGroup ∧ parent = none) :
    givenBy sources members parent here member = .ok [] := by
  obtain ⟨name, value⟩ := member
  unfold givenBy
  cases value with
  | obj resource =>
    cases hkind : ResourceKind.ofResource? resource with
    | none => simp only [Level.place, hkind, Walk.outcome_pure]
    | some kind => simp only [Level.place, hkind, if_pos (h kind hkind), Walk.outcome_pure]
  | _ => rfl

/-- Any other resource gives what is hoisted from its resolution. -/
theorem givenBy_of_kind {resource : Fields Json} {kind : ResourceKind}
    (hkind : ResourceKind.ofResource? resource = some kind)
    (hplaced : kind = .serverGroup → parent ≠ none) (name : String) :
    givenBy sources members parent here (name, .obj resource) =
      hoisted name <$> memberResolution sources members parent here resource := by
  have hplaced : ¬ (kind = .serverGroup ∧ parent = none) := fun h => hplaced h.1 h.2
  simp only [givenBy, Level.place, hkind, if_neg hplaced]
  rw [memberResolution, ← Walk.outcome_map, map_eq_pure_bind]
  rfl

/-- **Resources give their entries** iff each of them does. -/
theorem given_eq_ok_iff {part entries : Fields Json} :
    given sources members parent here part = .ok entries ↔
      ∃ give : String × Json → Fields Json,
        (∀ member ∈ part, givenBy sources members parent here member = .ok (give member)) ∧
          entries = part.flatMap give := by
  rw [given, map_eq_ok_iff]
  constructor
  · rintro ⟨parts, hparts, rfl⟩
    obtain ⟨give, hgive, rfl⟩ := mapM_eq_ok_iff.mp hparts
    exact ⟨give, hgive, rfl⟩
  · rintro ⟨give, hgive, rfl⟩
    exact ⟨part.map give, mapM_eq_ok hgive, rfl⟩

end Given

/-- **The result of a template** binds the entries that its resources give. -/
theorem walkTemplate_outcome {template members : Fields Json} {here : Position}
    (hmembers : resourcesOf? template = some members) (hdepth : here.depth < depthLimit)
    (sources : Sources) (parent : Option (Fields Json)) :
    (walkTemplate sources template parent).outcome here =
      Fields.extend [] <$> given sources members parent (here.inside members) members := by
  have hplace : ∀ entry : String × Json,
      ((Level.whole sources members).place parent entry.1 entry.2).Restoring :=
    fun entry => Level.whole_place_restoring sources members parent entry.1 entry.2
  have hfold := Walk.outcome_foldlM_extend hplace (here.inside_ne_nil members) members []
  rw [walkTemplate_eq, hmembers]
  show Walk.outcome (Walk.descend _) here = _
  rw [Walk.outcome_descend hdepth, Walk.outcome_within]
  refine Eq.trans hfold ?_
  show _ = Fields.extend [] <$> List.flatten <$> _
  rw [← comp_map]
  rfl

/-- **A template is resolved** below the depth limit only, and iff its resources give their
entries. -/
theorem walkTemplate_eq_ok_iff {template members : Fields Json} {here : Position}
    (hmembers : resourcesOf? template = some members) {sources : Sources}
    {parent : Option (Fields Json)} {resolved : Fields Json} :
    (walkTemplate sources template parent).outcome here = .ok resolved ↔
      here.depth < depthLimit ∧ ∃ entries,
        given sources members parent (here.inside members) members = .ok entries ∧
          resolved = Fields.extend [] entries := by
  by_cases hdepth : here.depth < depthLimit
  · rw [walkTemplate_outcome hmembers hdepth, map_eq_ok_iff]
    constructor
    · rintro ⟨entries, hentries, rfl⟩
      exact ⟨hdepth, entries, hentries, rfl⟩
    · rintro ⟨-, entries, hentries, rfl⟩
      exact ⟨entries, hentries, rfl⟩
  · rw [walkTemplate_eq, hmembers]
    show Walk.outcome (Walk.descend _) here = _ ↔ _
    rw [Walk.outcome, Walk.descend_of_le (Nat.le_of_not_lt hdepth)]
    constructor
    · intro h
      cases h
    · intro h
      exact absurd h.1 hdepth

/-- A template is resolved only if each of its interpreted resources is, server groups at the top
apart. -/
theorem memberResolution_of_walkTemplate_eq_ok {template members resource resolved : Fields Json}
    {name : String} {here : Position} {sources : Sources} {parent : Option (Fields Json)}
    {kind : ResourceKind} (hmembers : resourcesOf? template = some members)
    (hmember : (name, .obj resource) ∈ members)
    (hkind : ResourceKind.ofResource? resource = some kind)
    (hplaced : kind = .serverGroup → parent ≠ none)
    (hok : (walkTemplate sources template parent).outcome here = .ok resolved) :
    ∃ output, memberResolution sources members parent (here.inside members) resource =
      .ok output := by
  obtain ⟨-, entries, hentries, -⟩ := (walkTemplate_eq_ok_iff hmembers).mp hok
  obtain ⟨give, hgive, -⟩ := given_eq_ok_iff.mp hentries
  have hgiven := hgive _ hmember
  rw [givenBy_of_kind hkind hplaced] at hgiven
  obtain ⟨output, houtput, -⟩ := map_eq_ok_iff.mp hgiven
  exact ⟨output, houtput⟩

/-- Only a template with resources is resolved. -/
theorem resourcesOf?_of_walkTemplate_eq_ok {sources : Sources} {template : Fields Json}
    {parent : Option (Fields Json)} {here : Position} {resolved : Fields Json}
    (h : (walkTemplate sources template parent).outcome here = .ok resolved) :
    ∃ members, resourcesOf? template = some members := by
  cases hmembers : resourcesOf? template with
  | none =>
    rw [walkTemplate_eq, hmembers] at h
    cases h
  | some members => exact ⟨members, rfl⟩

/-- A resource is resolved below the depth limit only. -/
theorem depth_lt_of_walkResource_eq_ok {sources : Sources} {resources resource scope : Fields Json}
    {here : Position} {output : Json}
    (h : (walkResource sources resources resource scope).outcome here = .ok output) :
    here.depth < depthLimit := by
  by_contra hdepth
  rw [walkResource_eq, Walk.outcome, Walk.descend_of_le (Nat.le_of_not_lt hdepth)] at h
  cases h

/-! ### Entries of a result -/

/-- A resource gives interpreted resources only. -/
theorem hoisted_interpreted {name : String} {output : Json} {entry : String × Json}
    (h : entry ∈ hoisted name output) : (ResourceKind.ofValue? entry.2).isSome = true := by
  unfold hoisted at h
  split at h
  · split at h
    · rename_i hkind
      rw [List.mem_singleton.mp h]
      exact hkind
    · exact (List.mem_filter.mp h).2
  · exact absurd h List.not_mem_nil

theorem givenBy_interpreted {sources : Sources} {members : Fields Json}
    {parent : Option (Fields Json)} {here : Position} {member : String × Json}
    {entries : Fields Json} (h : givenBy sources members parent here member = .ok entries) :
    ∀ entry ∈ entries, (ResourceKind.ofValue? entry.2).isSome = true := by
  by_cases hplaced : ∀ kind, ResourceKind.ofValue? member.2 = some kind →
      kind = .serverGroup ∧ parent = none
  · rw [givenBy_of_unplaced hplaced] at h
    cases h
    exact fun entry hentry => absurd hentry List.not_mem_nil
  · push Not at hplaced
    obtain ⟨kind, hkind, hplaced⟩ := hplaced
    obtain ⟨name, value⟩ := member
    cases value with
    | obj resource =>
      rw [givenBy_of_kind hkind hplaced] at h
      obtain ⟨output, -, rfl⟩ := map_eq_ok_iff.mp h
      exact fun entry => hoisted_interpreted
    | _ => cases hkind

/-- **Every entry of a result** is an interpreted resource. -/
theorem walkTemplate_interpreted {sources : Sources} {template : Fields Json}
    {parent : Option (Fields Json)} {here : Position} {resolved : Fields Json}
    (h : (walkTemplate sources template parent).outcome here = .ok resolved) :
    ∀ entry ∈ resolved, (ResourceKind.ofValue? entry.2).isSome = true := by
  obtain ⟨members, hmembers⟩ := resourcesOf?_of_walkTemplate_eq_ok h
  obtain ⟨-, entries, hentries, rfl⟩ := (walkTemplate_eq_ok_iff hmembers).mp h
  obtain ⟨give, hgive, rfl⟩ := given_eq_ok_iff.mp hentries
  intro entry hentry
  have hmem := (Fields.mem_of_mem_extend hentry).resolve_left List.not_mem_nil
  obtain ⟨member, hmember, hentry⟩ := List.mem_flatMap.mp hmem
  exact givenBy_interpreted (hgive member hmember) entry hentry

end HeatPlacement.Heat
