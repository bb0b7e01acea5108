import HeatPlacement.Proofs.Groups.Expandable
import HeatPlacement.Proofs.Parameters.References
import HeatPlacement.Proofs.Walk.Properties

/-!
# References beside sibling properties

A server is resolved with its own properties as the scope that is looked up first. A `get_param` of
a server therefore refers to the property of its name, if there is one, before any parameter.

* `RefersTo`: the arguments of a `get_param` that name a parameter
* `InSight`: when no property of its name hides a parameter
* `Scopes.resolve_beside_eq_iff`: **a look-up beside properties** is one without them iff the
  parameter is in sight
* `walkTemplate_server`: what a template gives for one of its servers
* `reference_ignores_siblings_iff`: **when a reference ignores its siblings**
-/

namespace HeatPlacement.Heat

/-! ### Look-ups beside properties -/

/-- The argument of a `get_param` that names a parameter, alone or with the number of an item. -/
inductive RefersTo : Json → String → Option Nat → Prop where
  | whole (key : String) : RefersTo (.str key) key none
  | item (key : String) (i : Nat) : RefersTo (.arr [.str key, .ofNat i]) key (some i)

/-- **A parameter in sight** beside some properties. The host marker is always in sight. Any other
parameter is unless there is a property of its name that is not blank, does not just refer to
itself, and holds another value. -/
def InSight (scopes : Scopes) (own : Fields Json) (key : String) (index : Option Nat) : Prop :=
  key = hostMarker ∨ ∀ value, Fields.get? own key = some value → isPresent value = true →
    isSelfReference value key = false →
      (select value index).getD .null = (scopes.resolve key none key index).getD .null

/-- The properties that hide parameters of their names. -/
theorem Scopes.injected?_eq_some_iff {own : Fields Json} {key : String} {value : Json} :
    injected? (some own) key = some value ↔
      Fields.get? own key = some value ∧ isPresent value = true ∧
        isSelfReference value key = false := by
  rw [injected?, Option.bind_some, Option.filter_eq_some_iff, Bool.and_eq_true, Bool.not_eq_true']

/-- A property that hides the parameter of its name is what a look-up finds. -/
theorem Scopes.resolve_of_beside {scopes : Scopes} {own : Fields Json} {key root : String}
    {value : Json} (hroot : root ≠ hostMarker) (hvalue : Fields.get? own key = some value)
    (hpresent : isPresent value = true) (hself : isSelfReference value key = false)
    (index : Option Nat) : scopes.resolve key (some own) root index = select value index := by
  have hinjected := injected?_eq_some_iff.mpr ⟨hvalue, hpresent, hself⟩
  simp only [resolve, if_neg hroot, winning?, hinjected, Option.some_or]

/-- **A look-up beside properties** is one without them iff the parameter is in sight. -/
theorem Scopes.resolve_beside_eq_iff {scopes : Scopes} {own : Fields Json} {key : String}
    {index : Option Nat} :
    (scopes.resolve key (some own) key index).getD .null =
        (scopes.resolve key none key index).getD .null ↔ InSight scopes own key index := by
  by_cases hhost : key = hostMarker
  · refine iff_of_true ?_ (.inl hhost)
    rw [resolve, resolve, if_pos hhost, if_pos hhost]
  cases hown : injected? (some own) key with
  | none =>
    have hsame : scopes.resolve key (some own) key index = scopes.resolve key none key index := by
      simp only [resolve, winning?, hown]
      rfl
    refine iff_of_true (by rw [hsame]) (.inr fun value hvalue hpresent hself => ?_)
    rw [injected?_eq_some_iff.mpr ⟨hvalue, hpresent, hself⟩] at hown
    cases hown
  | some value =>
    have hbeside : scopes.resolve key (some own) key index = select value index := by
      simp only [resolve, if_neg hhost, winning?, hown, Option.some_or]
    obtain ⟨hvalue, hpresent, hself⟩ := injected?_eq_some_iff.mp hown
    rw [hbeside, InSight, or_iff_right hhost]
    constructor
    · intro h other hother _ _
      cases hvalue.symm.trans hother
      exact h
    · exact fun h => h value hvalue hpresent hself

/-- Outside a group, a property that refers to a parameter is the value of this parameter beside the
other properties. -/
theorem Context.ordinary?_of_refersTo {ctx : Context} (hcursor : ctx.cursor = none)
    {argument : Json} {key : String} {index : Option Nat} (h : RefersTo argument key index)
    (resources scope : Fields Json) :
    ctx.ordinary? resources scope (.single "get_param" argument) =
      some ((ctx.scopes.resolve key (some scope) key index).getD .null) := by
  have hcall : ∃ ref, Shape.of (.single "get_param" argument) = .reference (.getParam ref) ∧
      ref.name = key ∧ ctx.indexOf (some scope) ref.index = index := by
    cases h with
    | whole key => exact ⟨_, Shape.of_readsParameter ⟨_, rfl, .alone key⟩, rfl, rfl⟩
    | item key i =>
      exact ⟨_, Shape.of_readsParameter ⟨_, rfl, .followed key (.ofNat i) []⟩, rfl, rfl⟩
  obtain ⟨ref, hshape, rfl, hindex⟩ := hcall
  simp only [ordinary?, hshape, evaluate, getParam, hcursor, hindex]

/-! ### Servers of a template -/

/-- **What a template gives for one of its servers**: the server with its properties resolved one
level deeper, unless a later resource gives an entry of its name. -/
theorem walkTemplate_server {sources : Sources}
    {template before after server result : Fields Json} {name : String} {here : Position}
    {parent : Option (Fields Json)}
    (hmembers : resourcesOf? template = some (before ++ (name, .obj server) :: after))
    (hkind : ResourceKind.ofResource? server = some .server)
    (hok : (walkTemplate sources template parent).outcome here = .ok result) :
    let members := before ++ (name, .obj server) :: after
    let own := mergedProperties parent server
    ∃ properties later,
      ((Level.whole sources members).properties own own).outcome
        { here.inside members with depth := here.depth + 2 } = .ok properties ∧
      given sources members parent (here.inside members) after = .ok later ∧
      Fields.get? result name = some ((Fields.get? later.reverse name).getD
        (.obj (Fields.insert server "properties" (.obj properties)))) := by
  intro members own
  obtain ⟨-, entries, hentries, rfl⟩ := (walkTemplate_eq_ok_iff hmembers).mp hok
  obtain ⟨give, hgive, rfl⟩ := given_eq_ok_iff.mp hentries
  have hmerged : ResourceKind.ofResource? (Fields.insert server "properties" (.obj own)) =
      some .server := (ofResource?_insert_properties _ _).trans hkind
  have hexpand := expandable?_of_server hmerged
  obtain ⟨resolved, hresolved, hgiven, -⟩ := givenBy_of_unexpanded hkind (fun h => nomatch h)
    hexpand (hgive (name, .obj server) (by simp))
  obtain ⟨-, properties, hproperties, houtput⟩ := (walkResource_eq_ok_iff_of_unexpanded hmerged
    hexpand (Fields.get?_insert_self _ _ _)).mp hresolved
  cases houtput
  refine ⟨properties, after.flatMap give, hproperties, ?_, ?_⟩
  · exact given_eq_ok_iff.mpr ⟨give, fun member hmember => hgive member (by simp [hmember]), rfl⟩
  · rw [List.flatMap_append, List.flatMap_cons, hgiven, Fields.get?_extend, List.reverse_append,
      Fields.insert_insert, List.singleton_append, List.reverse_cons, List.append_assoc,
      Fields.get?_append, List.singleton_append, Fields.get?_cons, if_pos rfl]
    cases Fields.get? (after.flatMap give).reverse name <;> rfl

/-- **When a reference ignores its siblings.** A property of a server that refers to a parameter is
resolved beside the other properties of the server. It has the value of the parameter iff none of
them hides the parameter. -/
theorem reference_ignores_siblings_iff {sources : Sources}
    {template before after server result : Fields Json} {name property key : String}
    {argument : Json} {index : Option Nat} {here : Position}
    (hmembers : resourcesOf? template = some (before ++ (name, .obj server) :: after))
    (hkind : ResourceKind.ofResource? server = some .server)
    (hnames : (Fields.names (propertiesOf server)).Nodup)
    (hproperty : Fields.get? (propertiesOf server) property = some (.single "get_param" argument))
    (hordinary : property ∉ specialProperties) (hrefers : RefersTo argument key index)
    (hcursor : here.cursor = none)
    (hok : (walkTemplate sources template none).outcome here = .ok result) :
    ∃ properties later,
      given sources (before ++ (name, .obj server) :: after) none
        (here.inside (before ++ (name, .obj server) :: after)) after = .ok later ∧
      Fields.get? result name = some ((Fields.get? later.reverse name).getD
        (.obj (Fields.insert server "properties" (.obj properties)))) ∧
      Fields.get? properties property =
        some ((sources.scopes.resolve key (some (propertiesOf server)) key index).getD .null) ∧
      (Fields.get? properties property =
          some ((sources.scopes.resolve key none key index).getD .null) ↔
        InSight sources.scopes (propertiesOf server) key index) := by
  obtain ⟨properties, later, hproperties, hlater, hresult⟩ := walkTemplate_server hmembers hkind hok
  let there : Position :=
    { here.inside (before ++ (name, .obj server) :: after) with depth := here.depth + 2 }
  have hne : there.stack.frames ≠ [] := here.inside_ne_nil _
  obtain ⟨output, houtput, rfl⟩ := (Level.properties_eq_ok_iff
    (Level.whole_property_restoring sources _ _) hne hnames).mp hproperties
  have hvalue := houtput (property, .single "get_param" argument) (Fields.mem_of_get? hproperty)
  rw [Level.property_of_ordinary hordinary, Context.ordinary?_of_refersTo hcursor hrefers] at hvalue
  have hvalue : output (property, .single "get_param" argument) =
      some ((sources.scopes.resolve key (some (propertiesOf server)) key index).getD .null) :=
    (Except.ok.inj hvalue).symm
  have hresolved : Fields.get? ((propertiesOf server).filterMap fun entry =>
      (output entry).map (entry.1, ·)) property =
        some ((sources.scopes.resolve key (some (propertiesOf server)) key index).getD .null) := by
    rw [Fields.get?_filterMap output hnames, hproperty, Option.bind_some, hvalue]
  refine ⟨_, later, hlater, hresult, hresolved, ?_⟩
  rw [hresolved, Option.some_inj]
  exact Scopes.resolve_beside_eq_iff

/-- A property that only refers to its own name hides nothing. -/
theorem reference_ignores_siblings_of_self :
    let own : Fields Json :=
      [("name", .str "vm"), ("flavor", .single "get_param" (.str "flavor"))]
    let members : Fields Json := [("vm", .obj (serverOf own))]
    let sources : Sources := ⟨Yaml.read?, [], ⟨[], [("flavor", .str "m1.large")]⟩⟩
    resourcesOf? (templateOf members) = some members ∧
      ResourceKind.ofResource? (serverOf own) = some .server ∧ (Fields.names own).Nodup ∧
      "flavor" ∉ specialProperties ∧ RefersTo (.str "flavor") "flavor" none ∧
      InSight sources.scopes own "flavor" none ∧
      ∃ result properties,
        (walkTemplate sources (templateOf members) none).outcome .start = .ok result ∧
          Fields.get? result "vm" = some (.obj (serverOf properties)) ∧
          Fields.get? properties "flavor" = some (.str "m1.large") := by
  have hok : (walkTemplate ⟨Yaml.read?, [], ⟨[], [("flavor", .str "m1.large")]⟩⟩
      (templateOf [("vm", .obj (serverOf
        [("name", .str "vm"), ("flavor", .single "get_param" (.str "flavor"))]))])
      none).outcome .start =
        .ok [("vm", .obj (serverOf [("name", .str "vm"), ("flavor", .str "m1.large")]))] := by
    decide +kernel
  intro own members sources
  have hmembers : resourcesOf? (templateOf members) =
      some ([] ++ ("vm", .obj (serverOf own)) :: []) := rfl
  have hkind : ResourceKind.ofResource? (serverOf own) = some .server :=
    ResourceKind.ofName?_name .server
  have hnames : (Fields.names own).Nodup := by
    show ["name", "flavor"].Nodup
    decide
  have hordinary : "flavor" ∉ specialProperties := by decide
  have hsight : InSight sources.scopes own "flavor" none := by
    refine .inr fun value hvalue _ hself => ?_
    cases hvalue
    cases hself
  have hlarge : (sources.scopes.resolve "flavor" none "flavor" none).getD .null =
      .str "m1.large" := by
    decide +kernel
  obtain ⟨properties, later, hlater, hresult, -, hiff⟩ :=
    reference_ignores_siblings_iff hmembers hkind hnames rfl hordinary (.whole "flavor") rfl hok
  cases hlater
  rw [hlarge] at hiff
  exact ⟨hmembers, hkind, hnames, hordinary, .whole "flavor", hsight, _, properties, hok, hresult,
    hiff.mpr hsight⟩

/-- A sibling property hides the parameter of its name: the flavor of the request is not looked
at. -/
theorem reference_reads_sibling :
    let server := serverOf
      [("name", .single "get_param" (.str "flavor")), ("flavor", .str "m1.small")]
    let members : Fields Json := [("vm", .obj server)]
    let sources : Sources := ⟨Yaml.read?, [], ⟨[], [("flavor", .str "m1.large")]⟩⟩
    resourcesOf? (templateOf members) = some members ∧
      ResourceKind.ofResource? server = some .server ∧
      (Fields.names (propertiesOf server)).Nodup ∧ "name" ∉ specialProperties ∧
      RefersTo (.str "flavor") "flavor" none ∧
      sources.scopes.resolve "flavor" none "flavor" none = some (.str "m1.large") ∧
      (walkTemplate sources (templateOf members) none).outcome .start =
        .ok [("vm", .obj (serverOf [("name", .str "m1.small"), ("flavor", .str "m1.small")]))] := by
  have hok : (walkTemplate ⟨Yaml.read?, [], ⟨[], [("flavor", .str "m1.large")]⟩⟩
      (templateOf [("vm", .obj (serverOf
        [("name", .single "get_param" (.str "flavor")), ("flavor", .str "m1.small")]))])
      none).outcome .start =
        .ok [("vm", .obj (serverOf [("name", .str "m1.small"), ("flavor", .str "m1.small")]))] := by
    decide +kernel
  intro server members sources
  refine ⟨rfl, ResourceKind.ofName?_name .server, ?_, by decide, .whole "flavor", ?_, hok⟩
  · show ["name", "flavor"].Nodup
    decide
  · decide +kernel

end HeatPlacement.Heat
