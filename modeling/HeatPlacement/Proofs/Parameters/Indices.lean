import HeatPlacement.Proofs.Groups.Expansion
import HeatPlacement.Proofs.Json.Parts
import HeatPlacement.Proofs.Parameters.GroupNames
import HeatPlacement.Proofs.Parameters.Scopes

/-!
# Indices of references

A count, the group of scheduler hints and the groups of metadata look up the name of a reference on
their own, and leave its index aside. A reference to an item is there a reference to all items.

* `OnlyRequested`: a parameter that nothing but the request holds
* `walkResource_of_failing_count`: a group fails with its count
* `Level.schedulerHints_of_reference`: the group of scheduler hints that refers to a parameter
* `ItemReference`: a reference to an item, beside a plain one to a parameter that holds the item
* `indices_left_aside`: **what a reference to an item gives** in these places
-/

namespace HeatPlacement.Heat

/-! ### Parameters of the request -/

/-- **A parameter that only the request holds**: neither the environment nor the properties in scope
have a value of its name, and the name is not that of a marker with a value of its own. -/
structure OnlyRequested (scopes : Scopes) (scope : Fields Json) (key : String) (value : Json) :
    Prop where
  requested : Fields.get? scopes.request key = some value
  preset : Fields.get? scopes.environment key = none
  beside : Fields.get? scope key = none
  host : key ≠ hostMarker
  zone : Blank value → key ≠ zoneMarker

namespace OnlyRequested

variable {scopes : Scopes} {scope : Fields Json} {key : String} {value : Json}
  (h : OnlyRequested scopes scope key value)

include h

/-- Nothing in scope comes before the request. -/
theorem injected?_eq_none : Scopes.injected? (some scope) key = none := by
  rw [Scopes.injected?, Option.bind_some, h.beside, Option.filter_none]

/-- Its value is that of the request, in the scope and outside of it. -/
theorem resolvePlain (hfilled : ¬ Blank value) :
    scopes.resolvePlain key none = some value ∧
      scopes.resolvePlain key (some scope) = some value := by
  have hrequested := Scopes.requested?_eq_some_iff.mpr ⟨h.requested, hfilled⟩
  constructor
  · simp only [Scopes.resolvePlain, Scopes.resolve, if_neg h.host, Scopes.winning?,
      Scopes.injected?, Option.bind_none, Option.filter_none, hrequested, Option.none_or,
      Option.some_or, select]
  · simp only [Scopes.resolvePlain, Scopes.resolve, if_neg h.host, Scopes.winning?,
      h.injected?_eq_none, hrequested, Option.none_or, Option.some_or, select]

/-- A blank value counts as none. -/
theorem resolvePlain_of_blank (hblank : Blank value) :
    scopes.resolvePlain key (some scope) = none := by
  have hrequested : scopes.requested? key = none := by
    refine Scopes.requested?_eq_none_iff.mpr fun other hother => ?_
    cases h.requested.symm.trans hother
    exact hblank
  have hpreset : scopes.preset? key = none := by
    rw [Scopes.preset?, h.preset, Option.filter_none]
  simp only [Scopes.resolvePlain, Scopes.resolve, if_neg h.host, Scopes.winning?,
    h.injected?_eq_none, hrequested, hpreset, Option.none_or, if_neg (h.zone hblank)]

end OnlyRequested

/-- A blank value lists no names. -/
theorem Blank.listed_eq_nil {value : Json} (h : Blank value) : GroupNames.listed value = [] := by
  cases h with
  | null | empty => rfl
  | sequence hitems =>
    refine List.flatMap_eq_nil_iff.mpr fun item hitem => ?_
    rw [hitems item hitem]
    rfl

/-- A reference to a parameter of the request adds the names that it lists. -/
theorem OnlyRequested.groups_itemText {scopes : Scopes} {scope : Fields Json} {key : String}
    {value reference : Json} (h : OnlyRequested scopes scope key value)
    (hname : paramName? reference = some key) :
    GroupNames.groups (GroupNames.itemText scopes scope reference) = GroupNames.listed value := by
  rw [GroupNames.groups_itemText_of_reference hname]
  by_cases hblank : Blank value
  · rw [h.resolvePlain_of_blank hblank, hblank.listed_eq_nil]
    rfl
  · rw [(h.resolvePlain hblank).2]
    rfl

/-! ### References -/

section References

variable {reference : Json} {key : String} {index : ParamIndex}
  (href : Shape.of reference = .reference (.getParam ⟨key, index⟩))

include href

theorem paramName?_of_reference : paramName? reference = some key := by
  rw [paramName?, href]

/-- A count that refers to a parameter is an integer that this holds, whatever its index. -/
theorem Scopes.replicaCount_of_reference {scopes : Scopes} {scope : Fields Json} {value : Json}
    (hvalue : scopes.resolvePlain key (some scope) = some value) (hnull : value ≠ .null) :
    scopes.replicaCount (some reference) scope = integerCount value := by
  have hne : reference ≠ .null := by
    rintro rfl
    cases href
  simp only [replicaCount_some hne, paramName?_of_reference href, hvalue, Option.getD_some]

/-- A group of scheduler hints that refers to a parameter stands under its name, whatever its index,
unless a resource on the stack has this name. -/
theorem Level.schedulerHints_of_reference (level : Level) {hints : Json} {scope : Fields Json}
    {here : Position} (hgroup : hints.member? "group" = some reference)
    (hstack : here.stack.find? key = none) :
    (level.schedulerHints hints scope).outcome here = .ok (namedGroup key
      ((level.sources.scopes.resolvePlain key (some scope)).getD .null)) := by
  unfold Level.schedulerHints Level.context
  simp only [hgroup, href]
  rw [Walk.outcome_bind_of_eq rfl, Walk.outcome_look]
  show Walk.outcome (namedGroup key <$> level.siblingOr ((here.stack.find? key).bind Json.asObj?)
    scope _) here = _
  rw [Walk.outcome_map, hstack]
  rfl

end References

/-- A group fails with its count. -/
theorem walkResource_of_failing_count {sources : Sources}
    {resources group own injected scope : Fields Json} {file : String} {here : Position}
    {e : TemplateError} (hgroup : expandable? group = some own)
    (hdefinition : Level.definition? own = some (file, injected))
    (hdepth : here.depth < depthLimit)
    (hcount : sources.scopes.replicaCount (Fields.get? own "count") scope = .error e) :
    (walkResource sources resources group scope).outcome here = .error e := by
  rw [walkResource_eq, Walk.outcome_descend hdepth]
  simp only [Level.resource, hgroup, Level.expandGroup, hdefinition]
  rw [Walk.outcome_bind_of_eq rfl, Walk.outcome_ofExcept]
  show (sources.scopes.replicaCount _ scope >>= _) = _
  rw [hcount]
  rfl

/-! ### References to an item -/

/-- An integer is not blank. -/
theorem not_blank_of_asIndex? {value : Json} {n : Nat} (h : asIndex? value = some n) :
    ¬ Blank value := by
  have hempty : asIndex? (.str "") = none := by decide
  rintro (_ | _ | _)
  · cases h
  · rw [hempty] at h
    cases h
  · cases h

/-- A sequence lists what one of its items lists, which is no sequence itself, iff the other items
list nothing. -/
theorem GroupNames.listed_eq_item_iff {before after : List Json} {item : Json}
    (hitem : item.asArr? = none) :
    listed (.arr (before ++ item :: after)) = listed item ↔
      ∀ other ∈ before ++ after, groups (valueText other) = [] := by
  rw [listed, List.flatMap_append, List.flatMap_cons, ← listed_of_not_arr hitem,
    ← List.flatMap_eq_nil_iff, List.flatMap_append, List.append_eq_nil_iff]
  constructor
  · intro heq
    have hlength := congrArg List.length heq
    simp only [List.length_append] at hlength
    exact ⟨List.length_eq_zero_iff.mp (by omega), List.length_eq_zero_iff.mp (by omega)⟩
  · rintro ⟨hbefore, hafter⟩
    rw [hbefore, hafter, List.nil_append, List.append_nil]

/-- **A reference to an item** of a sequence that the request holds, and a plain one to another
parameter that holds nothing but the item. -/
structure ItemReference (scopes : Scopes) (scope : Fields Json) (key other : String)
    (before after : List Json) (item reference plain : Json) : Prop where
  whole : OnlyRequested scopes scope key (.arr (before ++ item :: after))
  filled : ¬ Blank (.arr (before ++ item :: after))
  alone : OnlyRequested scopes scope other item
  indexed : Shape.of reference = .reference (.getParam ⟨key, .literal before.length⟩)
  plain : Shape.of plain = .reference (.getParam ⟨other, .absent⟩)

namespace ItemReference

variable {scopes : Scopes} {scope : Fields Json} {key other : String} {before after : List Json}
  {item reference plain : Json}
  (h : ItemReference scopes scope key other before after item reference plain)

include h

/-- As a count it is the whole sequence, which is no integer. -/
theorem replicaCount : scopes.replicaCount (some reference) scope =
    .error (.invalidCount (.arr (before ++ item :: after))) := by
  rw [Scopes.replicaCount_of_reference h.indexed (h.whole.resolvePlain h.filled).2 (by simp)]
  rfl

theorem countProperty {level : Level} (hscopes : level.sources.scopes = scopes) :
    level.countProperty reference = .error (.invalidCount reference) := by
  simp only [Level.countProperty, paramName?_of_reference h.indexed, hscopes,
    (h.whole.resolvePlain h.filled).1, Option.bind_some]
  rfl

/-- The plain reference counts to the item. -/
theorem plain_counts {n : Nat} (hn : asIndex? item = some n) {level : Level}
    (hscopes : level.sources.scopes = scopes) :
    scopes.CountsTo scope (some plain) n ∧ level.countProperty plain = .ok (.ofNat n) := by
  obtain ⟨houtside, hinside⟩ := h.alone.resolvePlain (not_blank_of_asIndex? hn)
  have hname := paramName?_of_reference h.plain
  refine ⟨.parameter hname hinside hn, ?_⟩
  simp only [Level.countProperty, hname, hscopes, houtside, Option.bind_some, hn]

/-- As the group of scheduler hints it is the whole sequence. -/
theorem schedulerHints {level : Level} (hscopes : level.sources.scopes = scopes) {hints : Json}
    {here : Position} (hgroup : hints.member? "group" = some reference)
    (hstack : here.stack.find? key = none) :
    (level.schedulerHints hints scope).outcome here =
      .ok (Level.namedGroup key (.arr (before ++ item :: after))) := by
  rw [Level.schedulerHints_of_reference h.indexed level hgroup hstack, hscopes,
    (h.whole.resolvePlain h.filled).2, Option.getD_some]

/-- Among the groups of metadata it lists the names of all items. -/
theorem metadata_eq_iff {level : Level} (hscopes : level.sources.scopes = scopes)
    {place : Json → Json} (hplace : GroupNames.GroupPlace place) :
    level.metadata (.single "valet_groups" (place reference)) scope =
        level.metadata (.single "valet_groups" (place plain)) scope ↔
      GroupNames.listed (.arr (before ++ item :: after)) = GroupNames.listed item := by
  have hindexed := paramName?_of_reference h.indexed
  have hplain := paramName?_of_reference h.plain
  rw [← h.whole.groups_itemText hindexed, ← h.alone.groups_itemText hplain,
    ← GroupNames.resolve_place_eq_iff hplace (Option.isSome_of_mem hindexed)
      (Option.isSome_of_mem hplain), ← hscopes]
  simp [Level.metadata, Json.single, Fields.get?_cons, String.ofList_inj]

end ItemReference

/-- The group of one value is not that of a sequence that holds it. -/
theorem namedGroup_arr_ne {key : String} {items : List Json} {item : Json} (h : item ∈ items) :
    Level.namedGroup key (.arr items) ≠ Level.namedGroup key item := by
  intro heq
  have hself : Json.arr items = item := by
    simpa [Level.namedGroup, Json.single] using heq
  exact Json.arr_not_mem_self items (hself ▸ h)

/-- **What a reference to an item gives** where only its name is looked up. As the count of a group
it fails, even where the item is an integer. As the group of scheduler hints it is the whole
sequence and never the item. Among the groups of metadata it gives what a plain reference to the
item does iff the item lists all names of the sequence. -/
theorem indices_left_aside {sources : Sources} {scope : Fields Json} {key other : String}
    {before after : List Json} {item reference plain : Json}
    (h : ItemReference sources.scopes scope key other before after item reference plain)
    (resources : Fields Json) :
    let items := before ++ item :: after
    let level := Level.whole sources resources
    -- Counts of groups that are expanded, and of others.
    (∀ group own injected file here, expandable? group = some own →
      Fields.get? own "count" = some reference →
      Level.definition? own = some (file, injected) → here.depth < depthLimit →
      (walkResource sources resources group scope).outcome here =
        .error (.invalidCount (.arr items))) ∧
    level.countProperty reference = .error (.invalidCount reference) ∧
    (∀ n, asIndex? item = some n →
      sources.scopes.CountsTo scope (some plain) n ∧ level.countProperty plain = .ok (.ofNat n)) ∧
    -- Scheduler hints.
    (∀ hints here, hints.member? "group" = some reference → here.stack.find? key = none →
      (level.schedulerHints hints scope).outcome here = .ok (Level.namedGroup key (.arr items)) ∧
        Level.namedGroup key (.arr items) ≠ Level.namedGroup key item) ∧
    -- Groups of metadata.
    (∀ place, GroupNames.GroupPlace place →
      (level.metadata (.single "valet_groups" (place reference)) scope =
          level.metadata (.single "valet_groups" (place plain)) scope ↔
        GroupNames.listed (.arr items) = GroupNames.listed item)) ∧
    (item.asArr? = none →
      (GroupNames.listed (.arr items) = GroupNames.listed item ↔
        ∀ beside ∈ before ++ after, GroupNames.groups (GroupNames.valueText beside) = [])) := by
  intro items level
  refine ⟨?_, h.countProperty rfl, fun n hn => h.plain_counts hn rfl, ?_,
    fun place hplace => h.metadata_eq_iff rfl hplace, GroupNames.listed_eq_item_iff⟩
  · intro group own injected file here hgroup hcount hdefinition hdepth
    refine walkResource_of_failing_count hgroup hdefinition hdepth ?_
    rw [hcount, h.replicaCount]
  · intro hints here hgroup hstack
    exact ⟨h.schedulerHints rfl hgroup hstack,
      namedGroup_arr_ne (List.mem_append_right before List.mem_cons_self)⟩

/-- The other item lists no names, so that the reference to the item adds its name alone. The group
of scheduler hints is the whole sequence all the same. -/
theorem indices_left_aside_of_blank_items :
    let items : List Json := [.str "", .str "g1"]
    let sources : Sources := ⟨Yaml.read?, [], ⟨[], [("groups", .arr items), ("group", .str "g1")]⟩⟩
    let reference : Json := .single "get_param" (.arr [.str "groups", .ofNat 1])
    let plain : Json := .single "get_param" (.str "group")
    let level := Level.whole sources []
    ItemReference sources.scopes [] "groups" "group" [.str ""] [] (.str "g1") reference plain ∧
      level.metadata (.single "valet_groups" reference) [] =
        level.metadata (.single "valet_groups" plain) [] ∧
      (level.schedulerHints (.single "group" reference) []).outcome .start =
        .ok (Level.namedGroup "groups" (.arr items)) := by
  intro items sources reference plain level
  have hfilled : ¬ Blank (.arr items) := by
    rw [blank_iff]
    decide
  have hgroup : ¬ Blank (.str "g1") := by
    rw [blank_iff]
    decide
  have hreference : ItemReference sources.scopes [] "groups" "group" [.str ""] [] (.str "g1")
      reference plain :=
    ⟨⟨rfl, rfl, rfl, by decide, fun h => absurd h hfilled⟩, hfilled,
      ⟨rfl, rfl, rfl, by decide, fun h => absurd h hgroup⟩, by decide, by decide⟩
  obtain ⟨-, -, -, hhints, hmetadata, hlisted⟩ := indices_left_aside hreference []
  refine ⟨hreference, (hmetadata id .alone).mpr ((hlisted rfl).mpr ?_), ?_⟩
  · intro beside hbeside
    cases List.mem_singleton.mp hbeside
    decide
  · exact (hhints (.single "group" reference) .start rfl rfl).1

/-- A count that refers to an item fails, where a plain reference to the item makes two replicas. -/
theorem count_of_item_fails :
    let nested := templateOf [("node", .obj (namedServer "vm"))]
    let sources : Sources := ⟨Yaml.read?, [("node.yaml", .obj nested)],
      ⟨[], [("counts", .arr [.ofNat 1, .ofNat 2]), ("second", .ofNat 2)]⟩⟩
    let group (argument : Json) : Fields Json :=
      replicaGroup (.single "get_param" argument) "node.yaml"
    sources.scopes.resolve "counts" none "counts" (some 1) = some (.ofNat 2) ∧
      (walkTemplate sources (templateOf [("vms", .obj (group (.str "second")))]) none).outcome
        .start = .ok [("node_0", .obj (namedServer "vm")), ("node_1", .obj (namedServer "vm"))] ∧
      (walkTemplate sources (templateOf
        [("vms", .obj (group (.arr [.str "counts", .ofNat 1])))]) none).outcome .start =
          .error (.invalidCount (.arr [.ofNat 1, .ofNat 2])) := by
  decide +kernel

end HeatPlacement.Heat
