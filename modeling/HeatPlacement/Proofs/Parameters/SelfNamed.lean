import HeatPlacement.Proofs.Json.Parts
import HeatPlacement.Proofs.Parameters.Precedence
import HeatPlacement.Proofs.Parameters.References
import HeatPlacement.Proofs.Parameters.Siblings

/-!
# References to their own name

A property of a nested template may refer to its own name, and so to what is injected under it. The
injected value is put in place of such a reference before the properties are resolved. There it is
resolved as if the template had spelled it, whereas a reference under any other name looks it up.

* `Context.ordinary?_of_isSelfReference`: a reference to a name gives the item for the cursor
* `Scopes.injected?_mergeParent`: what a look-up finds among merged properties
* `ResolvesAsReferred`: the injected values that may stand for a reference to their name
* `Context.ordinary?_injected_eq_iff`: **when an injected value stands for the reference**
* `self_reference_resolves_iff`: **when a self-named reference resolves like any other**
-/

namespace HeatPlacement.Heat

/-! ### References to a name -/

/-- Under a cursor that applies, a parameter is looked up with the cursor as its index. -/
theorem Context.getParam_name (ctx : Context) (key : String) (parent : Option (Fields Json)) :
    ctx.getParam ⟨key, .absent⟩ parent .apply = ctx.scopes.resolve key parent key ctx.cursor := by
  cases hcursor : ctx.cursor with
  | none => exact getParam_of_no_cursor (.inr hcursor) _ _
  | some cursor => exact getParam_of_cursor hcursor _ _

/-- A `get_param` of a name refers to this name only. -/
theorem isSelfReference_getParam_iff {key property : String} :
    isSelfReference (.single "get_param" (.str key)) property = true ↔ key = property := by
  rw [isSelfReference_iff]
  show some (Json.str key) = some (.str property) ↔ _
  rw [Option.some.injEq, Json.str.injEq]

/-- A self-reference is a `get_param` of its name alone. -/
theorem Shape.of_isSelfReference {value : Json} {key : String}
    (h : isSelfReference value key = true) :
    Shape.of value = .reference (.getParam ⟨key, .absent⟩) :=
  Shape.of_readsParameter ⟨_, isSelfReference_iff.mp h, .alone key⟩

/-- **A property that refers to a name** gives the value under it, or its item for the cursor. -/
theorem Context.ordinary?_of_isSelfReference {value : Json} {key : String}
    (h : isSelfReference value key = true) (ctx : Context) (resources scope : Fields Json) :
    ctx.ordinary? resources scope value =
      some ((ctx.scopes.resolve key (some scope) key ctx.cursor).getD .null) := by
  simp only [ordinary?, Shape.of_isSelfReference h, evaluate, getParam_name]

/-! ### Look-ups among merged properties -/

section Merged

variable {own parent : Fields Json} {key : String}

/-- Where the own properties say nothing but to look further, a look-up finds what is injected. -/
theorem Scopes.injected?_mergeParent (hnames : (Fields.names parent).Nodup)
    (hself : ∀ old, Fields.get? own key = some old → isSelfReference old key = true) :
    injected? (some (mergeParent own parent)) key = injected? (some parent) key := by
  ext value
  rw [injected?_eq_some_iff, injected?_eq_some_iff]
  cases hparent : Fields.get? parent key with
  | some injected => rw [get?_mergeParent_of_injected hnames hparent hself]
  | none =>
    rw [get?_mergeParent_of_not_mem (Fields.get?_eq_none_iff.mp hparent)]
    refine iff_of_false (fun h => ?_) nofun
    rw [hself value h.1] at h
    exact absurd h.2.2 (by decide)

/-- Parameters are looked up alike beside properties that hold the same under their name. -/
theorem Scopes.resolve_congr_injected {parent parent' : Option (Fields Json)}
    (h : injected? parent key = injected? parent' key) (scopes : Scopes) (root : String)
    (index : Option Nat) :
    scopes.resolve key parent root index = scopes.resolve key parent' root index := by
  simp only [resolve, winning?, h]

/-- A reference beside the merged properties gives what is injected under its name, if the own
properties say nothing but to look further. -/
theorem Context.ordinary?_beside_merged (hnames : (Fields.names parent).Nodup)
    (hself : ∀ old, Fields.get? own key = some old → isSelfReference old key = true)
    {value : Json} (h : isSelfReference value key = true) (ctx : Context)
    (resources : Fields Json) :
    ctx.ordinary? resources (mergeParent own parent) value =
      some ((ctx.scopes.resolve key (some parent) key ctx.cursor).getD .null) := by
  rw [ordinary?_of_isSelfReference h,
    Scopes.resolve_congr_injected (Scopes.injected?_mergeParent hnames hself)]

end Merged

/-! ### Injected values in place of references -/

/-- **The injected values that may stand for a reference to their name**: resolved as properties,
they give what the reference gives. -/
inductive ResolvesAsReferred (ctx : Context) (resources scope : Fields Json) (key : String)
    (value : Json) : Prop where
  /-- The value refers to its name again. -/
  | again (hself : isSelfReference value key = true)
  /-- The name of the host marker stands for itself. -/
  | host (hkey : key = hostMarker)
    (hvalue : (ctx.ordinary? resources scope value).getD .null = .str key)
  /-- There is nothing to evaluate in the value, and no item of it to take. -/
  | settled (hkey : key ≠ hostMarker) (hpresent : isPresent value = true)
    (hsettled : ctx.ordinary? resources scope value = some value)
    (hwhole : ctx.cursor = none ∨ value.asArr? = none)
  /-- The value is blank, and the other scopes have no more to give. -/
  | blank (hkey : key ≠ hostMarker) (hblank : isPresent value = false)
    (hothers : (ctx.scopes.resolve key none key ctx.cursor).getD .null = value)

/-- A sequence stays a sequence, with the sequences among its items as they are. -/
theorem Context.ordinary?_arr (ctx : Context) (resources scope : Fields Json)
    (items : List Json) :
    ∃ resolved, ctx.ordinary? resources scope (.arr items) = some (.arr resolved) ∧
      ∀ (i : Nat) (inner : List Json), items[i]? = some (.arr inner) →
        resolved[i]? = some (.arr inner) := by
  cases items with
  | nil => exact ⟨[], rfl, nofun⟩
  | cons first rest =>
    have hshape : Shape.of (.arr (first :: rest)) = .sequence (first :: rest) := rfl
    simp only [ordinary?, hshape]
    split
    · refine ⟨_, rfl, fun i inner hitem => ?_⟩
      rw [List.getElem?_map, hitem]
      rfl
    · exact ⟨_, rfl, fun _ _ => id⟩

/-- Resolved as a property, a value that is present is what a look-up gives of it iff there is
nothing to evaluate in it and no item to take. -/
theorem Context.ordinary?_eq_select_iff {ctx : Context} {resources scope : Fields Json}
    {value : Json} (hpresent : isPresent value = true) :
    (ctx.ordinary? resources scope value).getD .null = (select value ctx.cursor).getD .null ↔
      ctx.ordinary? resources scope value = some value ∧
        (ctx.cursor = none ∨ value.asArr? = none) := by
  by_cases hwhole : ctx.cursor = none ∨ value.asArr? = none
  · have hselect : select value ctx.cursor = some value := by
      rcases hwhole with hnone | harr
      · rw [hnone, select_none]
      · exact select_of_not_arr harr ctx.cursor
    rw [hselect, Option.getD_some, and_iff_left hwhole]
    constructor
    · intro h
      cases hresolved : ctx.ordinary? resources scope value with
      | none =>
        rw [hresolved] at h
        cases h
        cases hpresent
      | some resolved => rw [← h, hresolved, Option.getD_some]
    · intro h
      rw [h, Option.getD_some]
  · -- A sequence is no item of its own, even after its items are evaluated.
    refine iff_of_false (fun h => ?_) fun h => hwhole h.2
    rw [not_or] at hwhole
    obtain ⟨cursor, hcursor⟩ := Option.ne_none_iff_exists'.mp hwhole.1
    cases value with
    | arr items =>
      obtain ⟨resolved, hresolved, hkept⟩ := ctx.ordinary?_arr resources scope items
      rw [hresolved, hcursor] at h
      have hitem : items[cursor]? = some (.arr resolved) := by
        change Json.arr resolved = items[cursor]?.getD .null at h
        cases hitem : items[cursor]? with
        | none =>
          rw [hitem] at h
          cases h
        | some item =>
          rw [hitem] at h
          exact congrArg some h.symm
      exact Json.arr_not_mem_self resolved (List.mem_of_getElem? (hkept cursor resolved hitem))
    | _ => exact hwhole.2 rfl

/-- **When an injected value stands for the reference** that it replaces. -/
theorem Context.ordinary?_injected_eq_iff {ctx : Context} {resources own parent : Fields Json}
    {key : String} {value : Json} (hnames : (Fields.names parent).Nodup)
    (hself : ∀ old, Fields.get? own key = some old → isSelfReference old key = true)
    (hvalue : Fields.get? parent key = some value) :
    (ctx.ordinary? resources (mergeParent own parent) value).getD .null =
        (ctx.scopes.resolve key (some parent) key ctx.cursor).getD .null ↔
      ResolvesAsReferred ctx resources (mergeParent own parent) key value := by
  by_cases hagain : isSelfReference value key = true
  · refine iff_of_true ?_ (.again hagain)
    rw [ordinary?_beside_merged hnames hself hagain, Option.getD_some]
  by_cases hhost : key = hostMarker
  · have hmarker : ctx.scopes.resolve key (some parent) key ctx.cursor = some (.str key) :=
      if_pos hhost
    rw [hmarker, Option.getD_some]
    constructor
    · exact .host hhost
    · rintro (hself | ⟨-, h⟩ | ⟨hne, -⟩ | ⟨hne, -⟩)
      · exact absurd hself hagain
      · exact h
      · exact absurd hhost hne
      · exact absurd hhost hne
  rw [Bool.not_eq_true] at hagain
  cases hpresent : isPresent value with
  | true =>
    rw [Scopes.resolve_of_beside hhost hvalue hpresent hagain, ordinary?_eq_select_iff hpresent]
    constructor
    · rintro ⟨hsettled, hwhole⟩
      exact .settled hhost hpresent hsettled hwhole
    · rintro (hself | ⟨hkey, -⟩ | ⟨-, -, hsettled, hwhole⟩ | ⟨-, hblank, -⟩)
      · rw [hagain] at hself
        cases hself
      · exact absurd hkey hhost
      · exact ⟨hsettled, hwhole⟩
      · rw [hpresent] at hblank
        cases hblank
  | false =>
    -- A blank value resolves to itself, or is dropped if it is null.
    have hresolved : (ctx.ordinary? resources (mergeParent own parent) value).getD .null =
        value := by
      cases value with
      | null | str text => rfl
      | _ => cases hpresent
    have hothers : ctx.scopes.resolve key (some parent) key ctx.cursor =
        ctx.scopes.resolve key none key ctx.cursor := by
      refine Scopes.resolve_congr_injected ?_ ctx.scopes key ctx.cursor
      rw [Scopes.injected?, Option.bind_some, hvalue, Option.filter_some, hpresent]
      rfl
    rw [hresolved, hothers]
    constructor
    · exact fun h => .blank hhost hpresent h.symm
    · rintro (hself | ⟨hkey, -⟩ | ⟨-, hpresent', -⟩ | ⟨-, -, h⟩)
      · rw [hagain] at hself
        cases hself
      · exact absurd hkey hhost
      · rw [hpresent] at hpresent'
        cases hpresent'
      · exact h.symm

/-! ### Servers of nested templates -/

section Resolution

variable {own parent : Fields Json} {property key : String}
  (hparent : (Fields.names parent).Nodup)
  (hproperty : Fields.get? own property = some (.single "get_param" (.str key)))

include hparent hproperty

/-- **Under another name** a reference gives what a look-up beside the injected properties gives. -/
theorem Context.ordinary?_of_other_name (hnone : Fields.get? own key = none) (ctx : Context)
    (resources : Fields Json) :
    (Fields.get? (mergeParent own parent) property).bind
        (ctx.ordinary? resources (mergeParent own parent)) =
      some ((ctx.scopes.resolve key (some parent) key ctx.cursor).getD .null) := by
  have hother : isSelfReference (.single "get_param" (.str key)) property = false := by
    rw [← Bool.not_eq_true, isSelfReference_getParam_iff]
    rintro rfl
    rw [hnone] at hproperty
    cases hproperty
  have hlook : ∀ old, Fields.get? own key = some old → isSelfReference old key = true := by
    rw [hnone]
    exact nofun
  rw [get?_mergeParent hproperty hother, Option.bind_some]
  exact ordinary?_beside_merged hparent hlook (isSelfReference_getParam_iff.mpr rfl) ctx resources

/-- **Under its own name** it does so iff nothing is injected there that may not stand for it. -/
theorem Context.ordinary?_of_own_name_iff (hown : property = key) (ctx : Context)
    (resources : Fields Json) :
    ((Fields.get? (mergeParent own parent) property).bind
          (ctx.ordinary? resources (mergeParent own parent))).getD .null =
        (ctx.scopes.resolve key (some parent) key ctx.cursor).getD .null ↔
      ∀ value, Fields.get? parent key = some value →
        ResolvesAsReferred ctx resources (mergeParent own parent) key value := by
  subst hown
  have hself : isSelfReference (.single "get_param" (.str property)) property = true :=
    isSelfReference_getParam_iff.mpr rfl
  have hlook : ∀ old, Fields.get? own property = some old →
      isSelfReference old property = true := by
    rw [hproperty]
    rintro _ ⟨⟩
    exact hself
  cases hinjected : Fields.get? parent property with
  | none =>
    -- The reference stays where it is.
    refine iff_of_true ?_ nofun
    rw [get?_mergeParent_of_not_mem (Fields.get?_eq_none_iff.mp hinjected), hproperty,
      Option.bind_some, ordinary?_beside_merged hparent hlook hself, Option.getD_some]
  | some value =>
    rw [get?_mergeParent_of_injected hparent hinjected hlook, Option.bind_some,
      ordinary?_injected_eq_iff hparent hlook hinjected]
    simp only [Option.some.injEq, forall_eq']

end Resolution

/-- **When a self-named reference resolves like any other.** A server of a nested template may refer
to a name under which nothing stands among its own properties, or under the name itself. The first
reference always gives what a look-up among the injected properties and the other scopes gives. The
second one does iff nothing is injected under its name, or a value that may stand for it. -/
theorem self_reference_resolves_iff {sources : Sources}
    {template before after server result parent : Fields Json} {name : String} {here : Position}
    (hmembers : resourcesOf? template = some (before ++ (name, .obj server) :: after))
    (hkind : ResourceKind.ofResource? server = some .server)
    (hnames : (Fields.names (propertiesOf server)).Nodup)
    (hparent : (Fields.names parent).Nodup)
    (hok : (walkTemplate sources template (some parent)).outcome here = .ok result) :
    let members := before ++ (name, .obj server) :: after
    let own := propertiesOf server
    let ctx : Context := ⟨sources.scopes, (here.inside members).stack, here.cursor⟩
    ∃ properties later,
      given sources members (some parent) (here.inside members) after = .ok later ∧
      Fields.get? result name = some ((Fields.get? later.reverse name).getD
        (.obj (Fields.insert server "properties" (.obj properties)))) ∧
      ∀ property key, property ∉ specialProperties →
        Fields.get? own property = some (.single "get_param" (.str key)) →
        let resolved := (Fields.get? properties property).getD .null
        let referred := (sources.scopes.resolve key (some parent) key here.cursor).getD .null
        (Fields.get? own key = none → resolved = referred) ∧
        (property = key → (resolved = referred ↔
          ∀ value, Fields.get? parent key = some value →
            ResolvesAsReferred ctx members (mergeParent own parent) key value)) := by
  intro members own ctx
  obtain ⟨properties, later, hproperties, hlater, hresult⟩ := walkTemplate_server hmembers hkind hok
  refine ⟨properties, later, hlater, hresult, fun property key hordinary hproperty => ?_⟩
  let there : Position := { here.inside members with depth := here.depth + 2 }
  have hne : there.stack.frames ≠ [] := here.inside_ne_nil members
  -- A property that is not special is evaluated beside the merged ones.
  have hresolved : Fields.get? properties property =
      (Fields.get? (mergeParent own parent) property).bind
        (ctx.ordinary? members (mergeParent own parent)) :=
    Level.get?_of_properties_eq_ok hne (nodup_names_mergeParent hnames parent) hproperties
      hordinary
  dsimp only
  rw [hresolved]
  refine ⟨fun hnone => ?_, fun hown =>
    Context.ordinary?_of_own_name_iff hparent hproperty hown ctx members⟩
  rw [Context.ordinary?_of_other_name hparent hproperty hnone, Option.getD_some]

/-- The name is injected as a text, which may stand for the reference. The images are injected as a
sequence, of which the reference under another name takes the item for the cursor. -/
theorem self_reference_resolves_of_text :
    let own : Fields Json :=
      [("name", .single "get_param" (.str "name")), ("image", .single "get_param" (.str "images"))]
    let members : Fields Json := [("node", .obj (serverOf own))]
    let parent : Fields Json := [("name", .str "vm"), ("images", .arr [.str "a", .str "b"])]
    let here : Position := ⟨.empty, some 1, 0⟩
    resourcesOf? (templateOf members) = some members ∧
      ResourceKind.ofResource? (serverOf own) = some .server ∧ (Fields.names own).Nodup ∧
      (Fields.names parent).Nodup ∧ "name" ∉ specialProperties ∧ "image" ∉ specialProperties ∧
      ∃ properties,
        (walkTemplate default (templateOf members) (some parent)).outcome here =
          .ok [("node", .obj (serverOf properties))] ∧
        (Fields.get? properties "name").getD .null = .str "vm" ∧
        (Fields.get? properties "image").getD .null = .str "b" := by
  have hok : (walkTemplate default (templateOf [("node", .obj (serverOf
      [("name", .single "get_param" (.str "name")),
        ("image", .single "get_param" (.str "images"))]))])
      (some [("name", .str "vm"), ("images", .arr [.str "a", .str "b"])])).outcome
        ⟨.empty, some 1, 0⟩ =
      .ok [("node", .obj (serverOf [("name", .str "vm"), ("image", .str "b"),
        ("images", .arr [.str "a", .str "b"])]))] := by
    decide +kernel
  intro own members parent here
  have hkind : ResourceKind.ofResource? (serverOf own) = some .server :=
    ResourceKind.ofName?_name .server
  have hmembers : resourcesOf? (templateOf members) =
      some ([] ++ ("node", .obj (serverOf own)) :: []) := rfl
  have hnames : (Fields.names own).Nodup := by
    show ["name", "image"].Nodup
    decide
  have hparent : (Fields.names parent).Nodup := by
    show ["name", "images"].Nodup
    decide
  obtain ⟨properties, later, hlater, hresult, hreference⟩ :=
    self_reference_resolves_iff hmembers hkind hnames hparent hok
  cases hlater
  cases hresult
  have hname := (hreference "name" "name" (by decide) rfl).2 rfl
  have himage := (hreference "image" "images" (by decide) rfl).1 rfl
  refine ⟨hmembers, hkind, hnames, hparent, by decide, by decide, _, hok, hname.mpr ?_, himage⟩
  rintro value ⟨⟩
  exact .settled (by decide) rfl rfl (.inr rfl)

/-- The names are injected as a sequence, which takes the place of the reference as a whole: the
first replica is not called by the first name. -/
theorem self_reference_takes_sequence :
    let own : Fields Json := [("name", .single "get_param" (.str "name"))]
    let members : Fields Json := [("node", .obj (serverOf own))]
    let parent : Fields Json := [("name", .arr [.str "vm-a", .str "vm-b"])]
    let here : Position := ⟨.empty, some 0, 0⟩
    resourcesOf? (templateOf members) = some members ∧
      ResourceKind.ofResource? (serverOf own) = some .server ∧ (Fields.names own).Nodup ∧
      (Fields.names parent).Nodup ∧ "name" ∉ specialProperties ∧
      (default : Scopes).resolve "name" (some parent) "name" here.cursor = some (.str "vm-a") ∧
      (walkTemplate default (templateOf members) (some parent)).outcome here =
        .ok [("node", .obj (serverOf [("name", .arr [.str "vm-a", .str "vm-b"])]))] := by
  have hok : (walkTemplate default (templateOf [("node", .obj (serverOf
      [("name", .single "get_param" (.str "name"))]))])
      (some [("name", .arr [.str "vm-a", .str "vm-b"])])).outcome ⟨.empty, some 0, 0⟩ =
      .ok [("node", .obj (serverOf [("name", .arr [.str "vm-a", .str "vm-b"])]))] := by
    decide +kernel
  intro own members parent here
  refine ⟨rfl, ResourceKind.ofName?_name .server, ?_, ?_, by decide, by decide +kernel, hok⟩
  · show ["name"].Nodup
    decide
  · show ["name"].Nodup
    decide

end HeatPlacement.Heat
