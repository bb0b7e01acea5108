import HeatPlacement.Proofs.Walk.Ensures
import HeatPlacement.Proofs.Walk.Properties
import Mathlib.Data.List.Forall2

/-!
# What a resolution retains

A resource that is no group to expand and names no template file is kept in its place, with its
properties resolved. Every property has a way of its own through the resolution, and on each of them
the property stays under its key or is dropped by a rule that only reads the property.

* `Retained`: the properties that are not dropped
* `Literal`, `CarriesOver`: values that are copied, and what becomes of an ordinary value
* `Level.property_carried`: **one property** is retained or dropped, and carried over
* `CarriedOver`, `Level.properties_carried`: **properties in order**, none lost and none invented
* `resource_carried_over`: **only the properties** of a resource change
-/

namespace HeatPlacement.Heat

/-! ### Properties that are retained -/

/-- **A property that is retained**: none of the networks, and null only if it has a resolution of
its own. -/
def Retained (property : String × Json) : Prop :=
  property.1 ≠ "networks" ∧ (property.2 = .null → property.1 ∈ specialProperties)

instance : DecidablePred Retained := fun property =>
  inferInstanceAs (Decidable
    (property.1 ≠ "networks" ∧ (property.2 = .null → property.1 ∈ specialProperties)))

/-! ### Values that are carried over -/

/-- A value that calls an intrinsic function. -/
def CallsIntrinsic (value : Json) : Prop := (Shape.of value).isReference = true

instance : DecidablePred CallsIntrinsic := fun value =>
  inferInstanceAs (Decidable ((Shape.of value).isReference = true))

theorem callsIntrinsic_iff {value : Json} :
    CallsIntrinsic value ↔ ∃ call, Shape.of value = .reference call := by
  unfold CallsIntrinsic Shape.isReference
  constructor
  · intro h
    split at h
    · rename_i call hcall
      exact ⟨call, hcall⟩
    · cases h
  · rintro ⟨call, hcall⟩
    rw [hcall]

/-- **A literal value**: a scalar, a map that is no call, or a sequence that no call leads. -/
inductive Literal : Json → Prop where
  | bool (b : Bool) : Literal (.bool b)
  | num (n : Number) : Literal (.num n)
  | str (s : String) : Literal (.str s)
  | map {fields : Fields Json} : ¬ CallsIntrinsic (.obj fields) → Literal (.obj fields)
  | sequence {items : List Json} :
      (∀ first ∈ items.head?, ¬ CallsIntrinsic first) → Literal (.arr items)

/-- An item of a sequence is kept unless it is a call. -/
def KeepsItem (item output : Json) : Prop := ¬ CallsIntrinsic item → output = item

/-- **What becomes of an ordinary value**: a literal one is copied, and a sequence that is led by a
call keeps its length and its items that are no calls. -/
structure CarriesOver (value output : Json) : Prop where
  literal : Literal value → output = value
  led : ∀ first rest, value = .arr (first :: rest) → CallsIntrinsic first →
    ∃ outputs, output = .arr outputs ∧ List.Forall₂ KeepsItem (first :: rest) outputs

theorem CarriesOver.of_eq (value : Json) : CarriesOver value value where
  literal _ := rfl
  led first rest hvalue _ :=
    ⟨first :: rest, hvalue, List.forall₂_same.mpr fun _ _ _ => rfl⟩

theorem not_literal_of_led {first : Json} (h : CallsIntrinsic first) (rest : List Json) :
    ¬ Literal (.arr (first :: rest))
  | .sequence hfirst => hfirst first rfl h

theorem not_literal_of_call {value : Json} (h : CallsIntrinsic value) : ¬ Literal value
  | .map hmap => hmap h

/-- Every value that is not null is literal, led by a call or a call. -/
theorem literal_or_led_or_call {value : Json} (h : value ≠ .null) :
    Literal value ∨ (∃ first rest, value = .arr (first :: rest) ∧ CallsIntrinsic first) ∨
      CallsIntrinsic value := by
  cases value with
  | null => exact absurd rfl h
  | bool b => exact .inl (.bool b)
  | num n => exact .inl (.num n)
  | str s => exact .inl (.str s)
  | arr items =>
    cases items with
    | nil => exact .inl (.sequence nofun)
    | cons first rest =>
      by_cases hfirst : CallsIntrinsic first
      · exact .inr (.inl ⟨first, rest, rfl, hfirst⟩)
      · refine .inl (.sequence fun item hitem => ?_)
        cases hitem
        exact hfirst
  | obj fields =>
    by_cases hcall : CallsIntrinsic (.obj fields)
    · exact .inr (.inr hcall)
    · exact .inl (.map hcall)

namespace Context

variable (ctx : Context) (resources scope : Fields Json)

/-- A literal value is copied. -/
theorem ordinary?_of_literal {value : Json} (h : Literal value) :
    ctx.ordinary? resources scope value = some value := by
  cases h with
  | @map fields hmap =>
    have hshape : Shape.of (.obj fields) = .map fields := by
      rw [callsIntrinsic_iff, Shape.of] at hmap
      rw [Shape.of]
      cases hcall : Intrinsic.ofFields? fields with
      | none => rfl
      | some call => exact absurd ⟨call, by rw [hcall]⟩ hmap
    rw [ordinary?, hshape]
  | @sequence items hfirst =>
    cases items with
    | nil => rfl
    | cons first rest => exact if_neg (hfirst first rfl)
  | _ => rfl

/-- The items of a sequence that is led by a call are resolved one by one. -/
theorem ordinary?_of_led {first : Json} (h : CallsIntrinsic first) (rest : List Json) :
    ∃ outputs, ctx.ordinary? resources scope (.arr (first :: rest)) = some (.arr outputs) ∧
      List.Forall₂ KeepsItem (first :: rest) outputs := by
  refine ⟨_, if_pos h, List.forall₂_map_right_iff.mpr (List.forall₂_same.mpr ?_)⟩
  intro item _ hitem
  split
  · rename_i call hcall
    exact absurd (callsIntrinsic_iff.mpr ⟨call, hcall⟩) hitem
  · rfl

/-- A call has a value. -/
theorem ordinary?_of_call {value : Json} (h : CallsIntrinsic value) :
    ∃ output, ctx.ordinary? resources scope value = some output := by
  obtain ⟨call, hcall⟩ := callsIntrinsic_iff.mp h
  rw [ordinary?, hcall]
  exact ⟨_, rfl⟩

/-- **An ordinary value is carried over** unless it is null. -/
theorem ordinary?_carriesOver {value : Json} (hnull : value ≠ .null) :
    ∃ output, ctx.ordinary? resources scope value = some output ∧ CarriesOver value output := by
  rcases literal_or_led_or_call hnull with hliteral | ⟨first, rest, rfl, hfirst⟩ | hcall
  · exact ⟨value, ctx.ordinary?_of_literal resources scope hliteral, .of_eq value⟩
  · obtain ⟨outputs, houtputs, hitems⟩ := ctx.ordinary?_of_led resources scope hfirst rest
    refine ⟨_, houtputs, fun h => absurd h (not_literal_of_led hfirst rest), ?_⟩
    rintro _ _ ⟨rfl, rfl⟩ -
    exact ⟨outputs, rfl, hitems⟩
  · obtain ⟨output, houtput⟩ := ctx.ordinary?_of_call resources scope hcall
    refine ⟨output, houtput, fun h => absurd h (not_literal_of_call hcall), ?_⟩
    rintro first rest rfl -
    cases hcall

end Context

/-! ### One property -/

/-- **A retained property under resolution**: it stays under its key, and its value is carried over
unless it has a resolution of its own. -/
def KeepsProperty (property output : String × Json) : Prop :=
  output.1 = property.1 ∧ (property.1 ∉ specialProperties → CarriesOver property.2 output.2)

/-- **What one property gives**: nothing if it is not retained, and otherwise a value. -/
inductive Carried (property : String × Json) : Option Json → Prop where
  | dropped : ¬ Retained property → Carried property none
  | kept {value : Json} :
      Retained property → KeepsProperty property (property.1, value) → Carried property (some value)

/-- **A property is retained or dropped** by its key and by whether it is null. -/
theorem Level.property_carried (level : Level) (scope : Fields Json) (key : String) (value : Json) :
    (level.property scope key value).Ensures (Carried (key, value)) := by
  by_cases hkey : key ∈ specialProperties
  · -- Among the properties with a resolution of their own, only the networks are dropped.
    have hkept : ∀ walk : Walk Json, key ≠ "networks" →
        (some <$> walk).Ensures (Carried (key, value)) := by
      intro walk hne
      refine .map fun _ resolved _ => .kept ⟨hne, fun _ => hkey⟩ ⟨rfl, fun hordinary => ?_⟩
      exact absurd hkey hordinary
    unfold Level.property
    split
    · exact .pure (.dropped fun h => h.1 rfl)
    · exact hkept _ (by decide)
    · exact hkept _ (by decide)
    · exact hkept _ (by decide)
    · exact hkept _ (by decide)
    · exact hkept (pure (level.metadata value scope)) (by decide)
    · simp_all [specialProperties]
  · intro here output houtput
    rw [Level.property_of_ordinary hkey] at houtput
    cases houtput
    by_cases hnull : value = .null
    · subst hnull
      exact .dropped fun h => hkey (h.2 rfl)
    · obtain ⟨resolved, hresolved, hcarries⟩ := Context.ordinary?_carriesOver
        ⟨level.sources.scopes, here.stack, here.cursor⟩ level.resources scope hnull
      have hne : key ≠ "networks" := fun h => hkey (h ▸ List.mem_cons_self)
      rw [hresolved]
      exact .kept ⟨hne, fun h => absurd h hnull⟩ ⟨rfl, fun _ => hcarries⟩

/-! ### Properties in order -/

/-- **Properties carried over**: one for each property that is retained, in order. -/
def CarriedOver (own resolved : Fields Json) : Prop :=
  List.Forall₂ KeepsProperty (own.filter (Retained ·)) resolved

/-- Properties are carried over behind those that are there, under new names. -/
theorem Level.foldlM_property_carried (level : Level) (scope : Fields Json)
    {own start : Fields Json} (hnames : (Fields.names (start ++ own)).Nodup) :
    Walk.Ensures (own.foldlM (fun resolved (key, value) => do
        match ← level.property scope key value with
        | some output => pure (Fields.insert resolved key output)
        | none => pure resolved) start) fun resolved =>
      ∃ outputs, resolved = start ++ outputs ∧ CarriedOver own outputs := by
  induction own generalizing start with
  | nil => exact .pure ⟨[], (List.append_nil start).symm, .nil⟩
  | cons property rest ih =>
    obtain ⟨key, value⟩ := property
    rw [List.foldlM_cons]
    -- The property is bound behind the others, or nothing is.
    refine Walk.Ensures.bind (P := fun resolved => ∃ output, Carried (key, value) output ∧
      resolved = start ++ (output.map (key, ·)).toList) ?_ ?_
    · refine (level.property_carried scope key value).bind fun output hcarried => ?_
      cases output with
      | none => exact .pure ⟨none, hcarried, (List.append_nil start).symm⟩
      | some output =>
        have hkey : key ∉ Fields.names start := by
          rw [Fields.names_append, Fields.names_cons, List.nodup_append'] at hnames
          exact fun hmem => hnames.2.2 hmem List.mem_cons_self
        exact .pure ⟨some output, hcarried, Fields.insert_of_not_mem hkey output⟩
    · rintro _ ⟨output, hcarried, rfl⟩
      cases hcarried with
      | dropped hdropped =>
        have hrest : (Fields.names (start ++ [] ++ rest)).Nodup := by
          rw [List.append_nil]
          exact (((List.sublist_cons_self _ rest).append_left start).map Prod.fst).nodup hnames
        refine (ih hrest).imp fun resolved ⟨outputs, hresolved, hcarried⟩ => ?_
        refine ⟨outputs, hresolved.trans (by rw [List.append_nil]), ?_⟩
        rwa [CarriedOver, List.filter_cons_of_neg (by simpa using hdropped)]
      | @kept output hretained hkeeps =>
        have hrest : (Fields.names (start ++ [(key, output)] ++ rest)).Nodup := by
          simpa using hnames
        refine (ih hrest).imp fun resolved ⟨outputs, hresolved, hcarried⟩ => ?_
        refine ⟨(key, output) :: outputs, hresolved.trans (List.append_assoc _ _ _), ?_⟩
        rw [CarriedOver, List.filter_cons_of_pos (by simpa using hretained)]
        exact .cons hkeeps hcarried

/-- **Properties are carried over**, whatever else there is to see. -/
theorem Level.properties_carried (level : Level) (scope : Fields Json) {own : Fields Json}
    (hnames : (Fields.names own).Nodup) :
    (level.properties scope own).Ensures (CarriedOver own) := by
  have hstart : (Fields.names ([] ++ own)).Nodup := hnames
  refine (level.foldlM_property_carried scope hstart).imp ?_
  rintro _ ⟨outputs, rfl, hcarried⟩
  exact hcarried

/-! ### A resource in its place -/

/-- **Only the properties of a resource change.** A resource with properties that is no group to
expand and names no template file is resolved into one with the same members in the same order. All
but the properties are as they were, and the properties are carried over. -/
theorem resource_carried_over {sources : Sources} {members resource scope own : Fields Json}
    {here : Position} {output : Json}
    (hown : Fields.get? resource "properties" = some (.obj own))
    (hnames : (Fields.names own).Nodup) (hexpand : expandable? resource = none)
    (hfile : namesNestedTemplate (typeOf resource) = false)
    (h : (walkResource sources members resource scope).outcome here = .ok output) :
    ∃ result resolved, output = .obj result ∧
      Fields.names result = Fields.names resource ∧
      (∀ key, key ≠ "properties" → Fields.get? result key = Fields.get? resource key) ∧
      Fields.get? result "properties" = some (.obj resolved) ∧ CarriedOver own resolved := by
  have hlevel : (Level.whole sources members).resource resource scope =
      (fun resolved => Json.obj (Fields.insert resource "properties" (.obj resolved))) <$>
        (Level.whole sources members).properties scope own := by
    rw [Level.resource_of_unexpanded hfile hexpand, hown]
    rfl
  have hresolved : (walkResource sources members resource scope).Ensures fun output =>
      ∃ resolved, output = .obj (Fields.insert resource "properties" (.obj resolved)) ∧
        CarriedOver own resolved := by
    rw [walkResource_eq, hlevel]
    exact .descend (.map ((Level.properties_carried _ scope hnames).imp
      fun resolved hcarried => ⟨resolved, rfl, hcarried⟩))
  obtain ⟨resolved, rfl, hcarried⟩ := hresolved here output h
  have hproperties : "properties" ∈ Fields.names resource := by
    rw [← Fields.has_iff_mem, Fields.has, hown]
    rfl
  refine ⟨_, resolved, rfl, ?_, fun key hkey => ?_, Fields.get?_insert_self _ _ _, hcarried⟩
  · rw [Fields.names_insert, if_pos hproperties]
  · exact Fields.get?_insert_of_ne (Ne.symm hkey) _

/-- A map, a sequence that is not led by a call and one that is, in a server with another member
behind its properties. The null note and the networks are gone, and the null zone is not. -/
theorem resource_carried_over_of_sequences :
    let flavor := Json.single "get_param" (.str "flavor")
    let image := Json.single "name" (.str "ubuntu")
    let own : Fields Json :=
      [("note", .null), ("image", image), ("networks", .arr []),
        ("tags", .arr [.str "a", flavor]), ("sizes", .arr [flavor, .null, .str "b"]),
        ("availability_zone", .null)]
    let resolved : Fields Json :=
      [("image", image), ("tags", .arr [.str "a", flavor]),
        ("sizes", .arr [.str "small", .null, .str "b"]), ("availability_zone", .null)]
    let behind : Fields Json := [("depends_on", .str "net")]
    let sources : Sources := ⟨Yaml.read?, [], ⟨[("flavor", .str "small")], []⟩⟩
    (walkResource sources [] (serverOf own ++ behind) []).outcome .start =
        .ok (.obj (serverOf resolved ++ behind)) ∧
      Fields.get? (serverOf own ++ behind) "properties" = some (.obj own) ∧
      (Fields.names own).Nodup ∧ expandable? (serverOf own ++ behind) = none ∧
      namesNestedTemplate (typeOf (serverOf own ++ behind)) = false ∧
      CarriedOver own resolved := by
  intro flavor image own resolved behind sources
  have hok : (walkResource sources [] (serverOf own ++ behind) []).outcome .start =
      .ok (.obj (serverOf resolved ++ behind)) := by
    decide +kernel
  have hnames : (Fields.names own).Nodup := by decide
  have hexpand : expandable? (serverOf own ++ behind) = none := by decide +kernel
  have hfile : namesNestedTemplate (typeOf (serverOf own ++ behind)) = false := by decide +kernel
  obtain ⟨result, resolved', hresult, -, -, hresolved, hcarried⟩ :=
    resource_carried_over rfl hnames hexpand hfile hok
  cases hresult
  cases hresolved
  exact ⟨hok, rfl, hnames, hexpand, hfile, hcarried⟩

end HeatPlacement.Heat
