import HeatPlacement.Proofs.Walk.Likeness
import HeatPlacement.Proofs.Walk.Shape

/-!
# The order of resources

The resources of a template are resolved one after another, and each may look up the others. Every
look-up is by name, and every resource is resolved at the same position, so that the order of the
resources shows only in the order of what they give.

* `Position.Alike`: positions whose frames answer look-ups alike
* `Walk.Matches`, `Walk.Likeness.matching`: walks that give the same from positions alike
* `resolver_matches`: **a resolution sees positions through look-ups only**
* `givenBy_eq_of_get?_eq`: a resource gives the same among resources in another order
* `nodup_names_givenBy`: a resource gives no name twice
* `GivesEachOnce`: no name is given by two resources of a template
* `resource_order_immaterial`: **the order of resources does not matter**
-/

namespace HeatPlacement.Heat

/-! ### Positions alike -/

/-- Stacks find the same if their frames do, one by one. -/
theorem ResourceStack.find?_eq_of_forall₂ {stack stack' : ResourceStack}
    (h : List.Forall₂ (fun frame frame' => Fields.get? frame = Fields.get? frame')
      stack.frames stack'.frames) : stack.find? = stack'.find? := by
  obtain ⟨frames⟩ := stack
  obtain ⟨frames'⟩ := stack'
  funext name
  unfold ResourceStack.find?
  dsimp only at h ⊢
  induction h with
  | nil => rfl
  | cons hframe _ ih => rw [List.findSome?_cons, List.findSome?_cons, hframe, ih]

/-- **Positions alike**: frame by frame they bind the same resources, in any order. -/
structure Position.Alike (here there : Position) : Prop where
  frames : List.Forall₂ (fun frame frame' : Fields Json => Fields.get? frame = Fields.get? frame')
    here.stack.frames there.stack.frames
  cursor : here.cursor = there.cursor
  depth : here.depth = there.depth

namespace Position.Alike

variable {here there : Position}

/-- Positions alike are seen alike. -/
theorem context (h : here.Alike there) (scopes : Scopes) :
    Context.Alike ⟨scopes, here.stack, here.cursor⟩ ⟨scopes, there.stack, there.cursor⟩ where
  resolve := rfl
  find? := ResourceStack.find?_eq_of_forall₂ h.frames
  cursor := h.cursor

theorem push (h : here.Alike there) {frame frame' : Fields Json}
    (hframe : Fields.get? frame = Fields.get? frame') :
    Alike { here with stack := here.stack.push frame }
      { there with stack := there.stack.push frame' } :=
  ⟨.cons hframe h.frames, h.cursor, h.depth⟩

theorem popNested (h : here.Alike there) :
    Alike { here with stack := here.stack.popNested }
      { there with stack := there.stack.popNested } := by
  obtain ⟨⟨frames⟩, cursor, depth⟩ := here
  obtain ⟨⟨frames'⟩, cursor', depth'⟩ := there
  obtain ⟨hframes, hcursor, hdepth⟩ := h
  refine ⟨?_, hcursor, hdepth⟩
  -- Both stacks have more than one frame, or neither has.
  cases hframes with
  | nil => exact .nil
  | cons hinner houter =>
    cases houter with
    | nil => exact .cons hinner .nil
    | cons hnext hrest => exact .cons hnext hrest

end Position.Alike

/-! ### Walks from positions alike -/

namespace Walk

variable {α β : Type} {walk walk' : Walk α}

/-- **Walks that match**: from positions alike they give the same answer and lead to positions
alike. -/
def Matches (walk walk' : Walk α) : Prop :=
  ∀ here there : Position, here.Alike there →
    walk.outcome here = walk'.outcome there ∧ (walk here).2.Alike (walk' there).2

namespace Matches

theorem ofExcept (result : Except TemplateError α) :
    Matches (ofExcept result) (ofExcept result) := fun _ _ h => ⟨rfl, h⟩

theorem bind (h : Matches walk walk') {next next' : α → Walk β}
    (hnext : ∀ a, Matches (next a) (next' a)) : Matches (walk >>= next) (walk' >>= next') := by
  intro here there halike
  obtain ⟨hanswer, hafter⟩ := h here there halike
  rw [outcome, outcome] at hanswer
  rw [outcome, outcome, bind_apply, bind_apply]
  obtain ⟨⟨result, after⟩, hwalk⟩ : ∃ r, walk here = r := ⟨_, rfl⟩
  obtain ⟨⟨result', after'⟩, hwalk'⟩ : ∃ r, walk' there = r := ⟨_, rfl⟩
  rw [hwalk, hwalk'] at hanswer hafter
  rw [hwalk, hwalk']
  cases hanswer
  cases result with
  | error e => exact ⟨rfl, hafter⟩
  | ok a => exact hnext a after after' hafter

theorem withCursor (h : Matches walk walk') (cursor : Nat) :
    Matches (withCursor cursor walk) (withCursor cursor walk') := by
  intro here there halike
  obtain ⟨hanswer, hafter⟩ := h { here with cursor := some cursor }
    { there with cursor := some cursor } ⟨halike.frames, rfl, halike.depth⟩
  exact ⟨hanswer, hafter.frames, halike.cursor, hafter.depth⟩

theorem within (h : Matches walk walk') {frame frame' : Fields Json}
    (hframe : Fields.get? frame = Fields.get? frame') :
    Matches (within frame walk) (within frame' walk') := by
  intro here there halike
  obtain ⟨hanswer, hafter⟩ := h _ _ (halike.push hframe)
  exact ⟨hanswer, hafter.popNested⟩

theorem descend (h : Matches walk walk') : Matches (descend walk) (descend walk') := by
  intro here there halike
  by_cases hlt : here.depth < depthLimit
  · obtain ⟨hanswer, hafter⟩ := h { here with depth := here.depth + 1 }
      { there with depth := there.depth + 1 }
      ⟨halike.frames, halike.cursor, congrArg (· + 1) halike.depth⟩
    rw [outcome, outcome, descend_of_lt hlt, descend_of_lt (halike.depth ▸ hlt)]
    exact ⟨hanswer, hafter.frames, hafter.cursor, congrArg (· - 1) hafter.depth⟩
  · have hle := Nat.not_lt.mp hlt
    rw [outcome, outcome, descend_of_le hle, descend_of_le (halike.depth ▸ hle)]
    exact ⟨rfl, halike⟩

end Matches

/-- To match is a likeness. -/
def Likeness.matching (scopes : Scopes) : Likeness scopes scopes where
  Rel := Matches
  ofExcept result _ := .ofExcept result
  look hnext here there halike := hnext _ _ (halike.context scopes) here there halike
  bind hwalk hnext := hwalk.bind hnext
  withCursor cursor h := h.withCursor cursor

end Walk

/-- **A resolution sees positions through look-ups only**, and the resources of its template too, on
every number of levels. -/
theorem resolver_matches (sources : Sources) (room : Nat) :
    (∀ template parent, ((resolver sources room).template template parent).Matches
        ((resolver sources room).template template parent)) ∧
      ∀ resources resources' : Fields Json, Fields.get? resources = Fields.get? resources' →
        ∀ target scope, ((resolver sources room).resource resources target scope).Matches
          ((resolver sources room).resource resources' target scope) := by
  induction room with
  | zero => exact ⟨fun _ _ => .ofExcept _, fun _ _ _ _ _ => .ofExcept _⟩
  | succ room ih =>
    obtain ⟨htemplate, hresource⟩ := ih
    constructor
    · intro template parent
      simp only [resolver]
      cases resourcesOf? template with
      | none => exact .ofExcept _
      | some resources =>
        have hlevel : (Level.template ⟨sources, resolver sources room, resources⟩ parent).Matches
            (Level.template ⟨sources, resolver sources room, resources⟩ parent) :=
          (Walk.Likeness.matching sources.scopes).level_template
            (hresource resources resources rfl) parent
        exact (hlevel.within rfl).descend
    · intro resources resources' hsame target scope
      have hlevel :
          (Level.resource ⟨sources, resolver sources room, resources⟩ target scope).Matches
            (Level.resource ⟨sources, resolver sources room, resources'⟩ target scope) :=
        (Walk.Likeness.matching sources.scopes).level_resource (.refl sources) hsame htemplate
          (hresource resources resources' hsame) target scope
      exact hlevel.descend

/-! ### What a resource gives -/

section Given

variable {sources : Sources} {parent : Option (Fields Json)} {here : Position}

/-- **A resource gives the same** among resources that are found alike. -/
theorem givenBy_eq_of_get?_eq {members members' : Fields Json}
    (h : Fields.get? members = Fields.get? members') (member : String × Json) :
    givenBy sources members parent (here.inside members) member =
      givenBy sources members' parent (here.inside members') member := by
  have hplace : ((Level.whole sources members).place parent member.1 member.2).Matches
      ((Level.whole sources members').place parent member.1 member.2) :=
    (Walk.Likeness.matching sources.scopes).level_place
      ((resolver_matches sources (depthLimit + 1)).2 members members' h) parent member.1 member.2
  have hinside : (here.inside members).Alike (here.inside members') :=
    ⟨.cons h (List.forall₂_refl _), rfl, rfl⟩
  exact (hplace _ _ hinside).1

/-- **A resource gives no name twice.** -/
theorem nodup_names_givenBy {members entries : Fields Json} {member : String × Json}
    (hne : here.stack.frames ≠ [])
    (h : givenBy sources members parent here member = .ok entries) :
    (Fields.names entries).Nodup := by
  cases gives_of_givenBy hne h with
  | nothing => exact List.nodup_nil
  | itself => exact List.nodup_singleton _
  | @replicas name _ _ _ count resolved =>
    -- Replicas are numbered.
    have hsublist : (hoisted name (.obj (replicaEntries resolved count))).Sublist _ :=
      sublist_hoisted (ofResource?_replicaEntries resolved count)
    exact (hsublist.map Prod.fst).nodup (nodup_names_replicaEntries resolved count)

end Given

/-! ### Resources in another order -/

/-- The names of what a resource of a template gives to the result: its own name, or the names of
its replicas. -/
def namesGivenBy (sources : Sources) (members : Fields Json) (parent : Option (Fields Json))
    (here : Position) (member : String × Json) : List String :=
  match givenBy sources members parent (here.inside members) member with
  | .ok entries => Fields.names entries
  | .error _ => []

/-- **No name is given by two resources** of a template. -/
def GivesEachOnce (sources : Sources) (members : Fields Json) (parent : Option (Fields Json))
    (here : Position) : Prop :=
  ∀ first ∈ members, ∀ second ∈ members, first.1 ≠ second.1 →
    ∀ name ∈ namesGivenBy sources members parent here first,
      name ∉ namesGivenBy sources members parent here second

instance (sources : Sources) (members : Fields Json) (parent : Option (Fields Json))
    (here : Position) : Decidable (GivesEachOnce sources members parent here) :=
  inferInstanceAs (Decidable (∀ first ∈ members, ∀ second ∈ members, first.1 ≠ second.1 →
    ∀ name ∈ namesGivenBy sources members parent here first,
      name ∉ namesGivenBy sources members parent here second))

/-- What the resources give stands under distinct names then. -/
theorem nodup_names_flatMap {sources : Sources} {members : Fields Json}
    {parent : Option (Fields Json)} {here : Position} {give : String × Json → Fields Json}
    (hnames : (Fields.names members).Nodup) (honce : GivesEachOnce sources members parent here)
    (hgive : ∀ member ∈ members,
      givenBy sources members parent (here.inside members) member = .ok (give member)) :
    (Fields.names (members.flatMap give)).Nodup := by
  have hgiven : ∀ member ∈ members,
      namesGivenBy sources members parent here member = Fields.names (give member) := by
    intro member hmember
    rw [namesGivenBy, hgive member hmember]
  rw [Fields.names, List.map_flatMap, List.nodup_flatMap]
  refine ⟨fun member hmember => ?_, ?_⟩
  · exact nodup_names_givenBy (here.inside_ne_nil members) (hgive member hmember)
  · have hpairs : members.Pairwise fun first second => first.1 ≠ second.1 :=
      List.pairwise_map.mp hnames
    refine hpairs.imp_of_mem fun {first second} hfirst hsecond hne name hname hname' => ?_
    refine honce first hfirst second hsecond hne name ?_ ?_
    · rwa [hgiven first hfirst]
    · rwa [hgiven second hsecond]

/-- **The order of resources does not matter.** A template with the same resources in another order
is resolved iff the first one is. If no name is given by two resources, the results have the same
entries, in another order. -/
theorem resource_order_immaterial {sources : Sources} {template template' members members' :
    Fields Json} {parent : Option (Fields Json)} {here : Position}
    (hmembers : resourcesOf? template = some members)
    (hmembers' : resourcesOf? template' = some members')
    (hnames : (Fields.names members).Nodup) (hperm : members'.Perm members) :
    ((∃ result, (walkTemplate sources template' parent).outcome here = .ok result) ↔
        ∃ result, (walkTemplate sources template parent).outcome here = .ok result) ∧
      ∀ result result', (walkTemplate sources template parent).outcome here = .ok result →
        (walkTemplate sources template' parent).outcome here = .ok result' →
          GivesEachOnce sources members parent here → result'.Perm result := by
  have hsame : ∀ member, givenBy sources members' parent (here.inside members') member =
      givenBy sources members parent (here.inside members) member :=
    givenBy_eq_of_get?_eq (Fields.get?_eq_of_perm hperm hnames)
  simp only [walkTemplate_eq_ok_iff hmembers, walkTemplate_eq_ok_iff hmembers', given_eq_ok_iff,
    hsame]
  constructor
  · constructor
    · rintro ⟨-, hdepth, -, ⟨give, hgive, -⟩, -⟩
      exact ⟨_, hdepth, _, ⟨give, fun member h => hgive member (hperm.mem_iff.mpr h), rfl⟩, rfl⟩
    · rintro ⟨-, hdepth, -, ⟨give, hgive, -⟩, -⟩
      exact ⟨_, hdepth, _, ⟨give, fun member h => hgive member (hperm.mem_iff.mp h), rfl⟩, rfl⟩
  · rintro _ _ ⟨-, _, ⟨give, hgive, rfl⟩, rfl⟩ ⟨-, _, ⟨give', hgive', rfl⟩, rfl⟩ honce
    have hgives : ∀ member ∈ members', give' member = give member := fun member hmember =>
      Except.ok.inj ((hgive' member hmember).symm.trans (hgive member (hperm.mem_iff.mp hmember)))
    have hentries : (members'.flatMap give').Perm (members.flatMap give) := by
      rw [List.flatMap_congr hgives]
      exact hperm.flatMap_right give
    -- No entry replaces another one, so that the results are the entries.
    have hnodup := nodup_names_flatMap hnames honce hgive
    have hresult : Fields.extend [] (members.flatMap give) = members.flatMap give :=
      Fields.extend_of_nodup hnodup
    have hresult' : Fields.extend [] (members'.flatMap give') = members'.flatMap give' :=
      Fields.extend_of_nodup ((hentries.map Prod.fst).nodup_iff.mpr hnodup)
    rwa [hresult, hresult']

/-- Two servers that refer to each other, one through an attribute and the other through a hint, in
front of a group of two replicas. -/
def mutualServers : Fields Json :=
  [("web", .obj (serverOf [("name", .single "get_attr" (.arr [.str "db", .str "name"]))])),
    ("db", .obj (serverOf [("scheduler_hints",
      .single "group" (.single "get_resource" (.str "web")))])),
    ("vms", .obj (replicaGroup (.ofNat 2) "node.yaml"))]

/-- In front of the servers that refer to each other, the replicas are the same, and so are the
servers behind them. -/
theorem resource_order_immaterial_of_mutual :
    let node := serverOf [("name", .str "vm")]
    let sources : Sources :=
      ⟨Yaml.read?, [("node.yaml", .obj (templateOf [("node", .obj node)]))], ⟨[], []⟩⟩
    let db := serverOf [("scheduler_hints",
      .single "group" (.single "get_resource" (.str "web")))]
    let web := Json.obj (serverOf [("name", .arr [.obj db, .str "name"])])
    let hinted := Json.obj (serverOf [("scheduler_hints", .single "group" (.single "web" web))])
    let result : Fields Json :=
      [("web", web), ("db", hinted), ("node_0", .obj node), ("node_1", .obj node)]
    let result' : Fields Json :=
      [("node_0", .obj node), ("node_1", .obj node), ("db", hinted), ("web", web)]
    (walkTemplate sources (templateOf mutualServers) none).outcome .start = .ok result ∧
      (walkTemplate sources (templateOf mutualServers.reverse) none).outcome .start =
        .ok result' ∧
      GivesEachOnce sources mutualServers none .start ∧ result'.Perm result := by
  intro node sources db web hinted result result'
  have hok : (walkTemplate sources (templateOf mutualServers) none).outcome .start =
      .ok result := by
    decide +kernel
  have hok' : (walkTemplate sources (templateOf mutualServers.reverse) none).outcome .start =
      .ok result' := by
    decide +kernel
  have honce : GivesEachOnce sources mutualServers none .start := by decide +kernel
  have hmembers : resourcesOf? (templateOf mutualServers) = some mutualServers := rfl
  have hmembers' : resourcesOf? (templateOf mutualServers.reverse) = some mutualServers.reverse :=
    rfl
  have hnames : (Fields.names mutualServers).Nodup := by decide
  obtain ⟨-, hperm⟩ :=
    resource_order_immaterial hmembers hmembers' hnames mutualServers.reverse_perm
  exact ⟨hok, hok', honce, hperm result result' hok hok' honce⟩

end HeatPlacement.Heat
