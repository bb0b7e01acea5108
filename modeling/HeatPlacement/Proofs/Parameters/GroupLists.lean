import HeatPlacement.Proofs.Parameters.Indices
import HeatPlacement.Proofs.Parameters.References
import HeatPlacement.Proofs.Walk.Properties

/-!
# Spellings of a group list

The groups of metadata are a list, or a reference to a parameter. The parameter holds the list, or
the texts of its items joined by commas.

* `GroupNames.resolve_arr`: **a list keeps the names of its items**, in order
* `GroupNames.joined`: the texts of some items, joined by commas
* `BoundByRequest`: a parameter that nothing but the request binds
* `BoundByRequest.groups_itemText_eq_iff`: when a reference gives the names that are held
* `GroupNames.list_spellings_agree_iff`: **when the spellings of a list agree**
* `GroupNames.markers_part_spellings`: the two markers as names of the parameter
-/

namespace HeatPlacement.Heat

/-! ### Lists -/

/-- Without a `get_param` nothing refers to a parameter. -/
theorem paramName?_of_member?_eq_none {value : Json} (h : value.member? "get_param" = none) :
    paramName? value = none := by
  cases value with
  | obj fields =>
    have hnone : ∀ ref, Intrinsic.ofFields? fields ≠ some (.getParam ref) := by
      intro ref href
      obtain ⟨argument, hargument, -⟩ := Intrinsic.ofFields?_eq_getParam_iff.mp href
      cases h.symm.trans hargument
    rw [paramName?, Shape.of]
    cases hcall : Intrinsic.ofFields? fields with
    | none => rfl
    | some call =>
      cases call with
      | getParam ref => exact absurd hcall (hnone ref)
      | _ => rfl
  | _ => rfl

namespace GroupNames

/-- **A list keeps the names of its items**, in order. -/
theorem resolve_arr (scopes : Scopes) (scope : Fields Json) (items : List Json) :
    resolve scopes scope (.arr items) =
      [',', ' '].intercalate (items.flatMap fun item => groups (itemText scopes scope item)) := by
  show tidy _ = _
  rw [tidy, groups_intercalate, List.flatMap_map]

/-- The text of a value that refers to no parameter is its own, whatever the scopes. -/
theorem itemText_of_member?_eq_none {item : Json} (h : item.member? "get_param" = none)
    (scopes : Scopes) (scope : Fields Json) : itemText scopes scope item = valueText item := by
  rw [itemText, paramName?_of_member?_eq_none h]

/-- The texts of some items, joined by commas. -/
def joined (items : List Json) : String := String.ofList ([','].intercalate (items.map valueText))

/-- The joined texts list what the items do. -/
theorem listed_joined (items : List Json) : listed (.str (joined items)) = listed (.arr items) := by
  show groups (String.toList (joined items)) = _
  rw [joined, String.toList_ofList, groups_intercalate, List.flatMap_map, listed]

/-- A list without references is resolved like the joined texts of its items. -/
theorem resolve_arr_of_values {items : List Json}
    (h : ∀ item ∈ items, item.member? "get_param" = none) (scopes : Scopes) (scope : Fields Json) :
    resolve scopes scope (.arr items) = tidy (joined items).toList := by
  have htexts : items.map (itemText scopes scope) = items.map valueText :=
    List.map_congr_left fun item hitem => itemText_of_member?_eq_none (h item hitem) scopes scope
  show tidy _ = _
  rw [htexts, joined, String.toList_ofList]

end GroupNames

/-! ### References -/

/-- **A parameter that nothing but the request binds**, whatever its name. -/
structure BoundByRequest (scopes : Scopes) (scope : Fields Json) (key : String) (value : Json) :
    Prop where
  requested : Fields.get? scopes.request key = some value
  preset : Fields.get? scopes.environment key = none
  beside : Fields.get? scope key = none

namespace BoundByRequest

open GroupNames

variable {scopes : Scopes} {scope : Fields Json} {key : String} {value : Json}
  (h : BoundByRequest scopes scope key value)

include h

/-- A blank parameter with the name of the zone marker is the unresolved zone. -/
theorem resolvePlain_of_zone (hzone : key = zoneMarker) (hblank : Blank value) :
    scopes.resolvePlain key (some scope) = some unresolvedZone := by
  have hhost : key ≠ hostMarker := by
    rw [hzone]
    decide
  have hrequested : scopes.requested? key = none := by
    refine Scopes.requested?_eq_none_iff.mpr fun other hother => ?_
    cases h.requested.symm.trans hother
    exact hblank
  have hpreset : scopes.preset? key = none := by
    rw [Scopes.preset?, h.preset, Option.filter_none]
  have hinjected : Scopes.injected? (some scope) key = none := by
    rw [Scopes.injected?, Option.bind_some, h.beside, Option.filter_none]
  simp only [Scopes.resolvePlain, Scopes.resolve, if_neg hhost, Scopes.winning?, hinjected,
    hrequested, hpreset, Option.none_or, if_pos hzone]

/-- **When a reference gives the names that are held.** The host marker as the name of the parameter
gives itself, and the zone marker stands for a name where the value is blank. -/
theorem groups_itemText_eq_iff :
    groups (itemText scopes scope (.single "get_param" (.str key))) = listed value ↔
      (key = hostMarker → listed value = [hostMarker.toList]) ∧
        (key = zoneMarker → ¬ Blank value) := by
  have hname : paramName? (.single "get_param" (.str key)) = some key :=
    paramName?_of_reference (Shape.of_single .getParam (.str key))
  by_cases hhost : key = hostMarker
  · have hgroups : groups (itemText scopes scope (.single "get_param" (.str key))) =
        [hostMarker.toList] := by
      rw [groups_itemText_of_reference hname, Scopes.resolvePlain, Scopes.resolve, if_pos hhost,
        hhost]
      decide +kernel
    have hzone : key ≠ zoneMarker := by
      rw [hhost]
      decide
    rw [hgroups]
    exact ⟨fun heq => ⟨fun _ => heq.symm, fun heq => absurd heq hzone⟩,
      fun hall => (hall.1 hhost).symm⟩
  · by_cases hzone : key = zoneMarker ∧ Blank value
    · have hgroups : groups (itemText scopes scope (.single "get_param" (.str key))) =
          ["None".toList] := by
        rw [groups_itemText_of_reference hname, h.resolvePlain_of_zone hzone.1 hzone.2]
        decide +kernel
      rw [hgroups, hzone.2.listed_eq_nil]
      exact iff_of_false (List.cons_ne_nil _ _) fun hall => hall.2 hzone.1 hzone.2
    · have honly : OnlyRequested scopes scope key value :=
        ⟨h.requested, h.preset, h.beside, hhost, fun hblank heq => hzone ⟨heq, hblank⟩⟩
      exact iff_of_true (honly.groups_itemText hname)
        ⟨fun heq => absurd heq hhost, fun heq hblank => hzone ⟨heq, hblank⟩⟩

end BoundByRequest

namespace GroupNames

/-- **How the groups of metadata are flattened.** They become one text. That of a list joins the
names in the texts of its items, item by item. A list without references, a reference to a parameter
that holds the list, and a reference to one that holds the joined texts give the same text, unless
the name of the parameter is a marker: under the host marker they do iff the only name in the list
is the marker itself, and under the zone marker iff neither the list nor the joined text is
blank. -/
theorem list_spellings_agree_iff (scope : Fields Json) :
    (∀ (level : Level) metadata value, Fields.get? metadata "valet_groups" = some value →
      level.metadata (.obj metadata) scope = .single "valet_groups"
        (.str (String.ofList (resolve level.sources.scopes scope value)))) ∧
    (∀ scopes items, resolve scopes scope (.arr items) =
      [',', ' '].intercalate (items.flatMap fun item => groups (itemText scopes scope item))) ∧
    ∀ (scopes holding joining : Scopes) (items : List Json) (key : String),
      (∀ item ∈ items, item.member? "get_param" = none) →
      BoundByRequest holding scope key (.arr items) →
      BoundByRequest joining scope key (.str (joined items)) →
      (resolve holding scope (.single "get_param" (.str key)) = resolve scopes scope (.arr items) ∧
          resolve joining scope (.single "get_param" (.str key)) =
            resolve scopes scope (.arr items) ↔
        (key = hostMarker → listed (.arr items) = [hostMarker.toList]) ∧
          (key = zoneMarker → ¬ Blank (.arr items) ∧ ¬ Blank (.str (joined items)))) := by
  refine ⟨fun level metadata value hvalue => ?_, fun scopes => resolve_arr scopes scope, ?_⟩
  · simp only [Level.metadata, hvalue]
  · intro scopes holding joining items key hitems hholding hjoining
    -- Both references give the text of the list iff they give the names in it.
    have hagree : ∀ {given : Scopes} {value : Json}, BoundByRequest given scope key value →
        listed value = listed (.arr items) →
        (resolve given scope (.single "get_param" (.str key)) = resolve scopes scope (.arr items) ↔
          (key = hostMarker → listed (.arr items) = [hostMarker.toList]) ∧
            (key = zoneMarker → ¬ Blank value)) := by
      intro given value hgiven hlisted
      have hnames : groups (joined items).toList = listed value :=
        (listed_joined items).trans hlisted.symm
      rw [resolve_arr_of_values hitems, ← hlisted, ← hgiven.groups_itemText_eq_iff, ← hnames]
      exact tidy_inj
    rw [hagree hholding rfl, hagree hjoining (listed_joined items)]
    constructor
    · rintro ⟨⟨hhost, hlist⟩, -, htext⟩
      exact ⟨hhost, fun hzone => ⟨hlist hzone, htext hzone⟩⟩
    · rintro ⟨hhost, hzone⟩
      exact ⟨⟨hhost, fun h => (hzone h).1⟩, hhost, fun h => (hzone h).2⟩

/-- Items with commas, blanks and quotes, and items without a name: the spellings agree. -/
theorem list_spellings_agree_of_mixed_items :
    let items : List Json := [.str "a, \"b\"", .str "", .null, .ofNat 7, .arr [.str " c "]]
    let holding : Scopes := ⟨[], [("groups", .arr items)]⟩
    let joining : Scopes := ⟨[], [("groups", .str (joined items))]⟩
    let reference : Json := .single "get_param" (.str "groups")
    (∀ item ∈ items, item.member? "get_param" = none) ∧
      BoundByRequest holding [] "groups" (.arr items) ∧
      BoundByRequest joining [] "groups" (.str (joined items)) ∧
      resolve ⟨[], []⟩ [] (.arr items) = "a, b, 7, c".toList ∧
      resolve holding [] reference = "a, b, 7, c".toList ∧
      resolve joining [] reference = "a, b, 7, c".toList := by
  intro items holding joining reference
  have hitems : ∀ item ∈ items, item.member? "get_param" = none := by decide
  have hholding : BoundByRequest holding [] "groups" (.arr items) := ⟨rfl, rfl, rfl⟩
  have hjoining : BoundByRequest joining [] "groups" (.str (joined items)) := ⟨rfl, rfl, rfl⟩
  have hlist : resolve ⟨[], []⟩ [] (.arr items) = "a, b, 7, c".toList := by decide +kernel
  obtain ⟨-, -, hagree⟩ := list_spellings_agree_iff []
  obtain ⟨hheld, htext⟩ :=
    (hagree ⟨[], []⟩ holding joining items "groups" hitems hholding hjoining).mpr
      ⟨fun h => absurd h (by decide), fun h => absurd h (by decide)⟩
  exact ⟨hitems, hholding, hjoining, hlist, hheld.trans hlist, htext.trans hlist⟩

/-- A parameter may bear the name of a marker. The host marker gives itself in place of the list
that it holds, and the zone marker names a group where its list has none. -/
theorem markers_part_spellings :
    let server (groups : Json) : Fields Json :=
      serverOf [("metadata", .obj [("valet_groups", groups)])]
    let run (request : Fields Json) (groups : Json) : Except TemplateError (Fields Json) :=
      (walkTemplate ⟨Yaml.read?, [], ⟨[], request⟩⟩ (templateOf [("vm", .obj (server groups))])
        none).outcome .start
    let reference (key : String) : Json := .single "get_param" (.str key)
    let pair : Json := .arr [.str "a", .str "b"]
    let blank : Json := .arr [.str ""]
    run [] pair = .ok [("vm", .obj (server (.str "a, b")))] ∧
      run [(hostMarker, pair)] (reference hostMarker) =
        .ok [("vm", .obj (server (.str hostMarker)))] ∧
      run [] blank = .ok [("vm", .obj (server (.str "")))] ∧
      run [(zoneMarker, blank)] (reference zoneMarker) =
        .ok [("vm", .obj (server (.str "None")))] := by
  decide +kernel

end GroupNames

end HeatPlacement.Heat
