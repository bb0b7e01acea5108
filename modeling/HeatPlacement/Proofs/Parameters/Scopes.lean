import HeatPlacement.Proofs.Fields
import HeatPlacement.Proofs.Walk.Likeness
import HeatPlacement.Proofs.Walk.Restoration

/-!
# Request and environment as one scope

A resolution sees the parameters of the request and of the environment only through the look-up of
single parameters, on every level and for every property. Two pairs of scopes in which every
parameter has the same value are therefore the same to it.

* `Blank`: the values of a request that count as absent
* `resolver_congr`: **a resolution sees scopes through look-ups only**
* `Overlays`: the environment that a request collapses into
* `scopes_collapse`: **the request collapses into the environment**
-/

namespace HeatPlacement.Heat

/-! ### Scopes that resolve alike -/

/-- **A resolution sees scopes through look-ups only**, on every number of levels. -/
theorem resolver_congr {reader : Reader} {files : Fields Json} {scopes scopes' : Scopes}
    (h : scopes.resolve = scopes'.resolve) (room : Nat) :
    resolver ⟨reader, files, scopes⟩ room = resolver ⟨reader, files, scopes'⟩ room :=
  have halike : Sources.Alike ⟨reader, files, scopes⟩ ⟨reader, files, scopes'⟩ := ⟨h, rfl⟩
  resolver_eq_of_alike halike room

/-! ### The request collapses into the environment -/

/-- **Blank values**: a parameter of the request with one of these is absent. -/
inductive Blank : Json → Prop where
  | null : Blank .null
  | empty : Blank (.str "")
  | sequence {items : List Json} : (∀ item ∈ items, item = .str "") → Blank (.arr items)

theorem blank_iff {value : Json} :
    Blank value ↔ (isPresent value && !isBlankSequence value) = false := by
  constructor
  · intro h
    cases h with
    | null => rfl
    | empty => rfl
    | sequence h => simpa [isPresent, isBlankSequence] using h
  · intro h
    cases value with
    | null => exact .null
    | str s =>
      have hs : s = "" := by simpa [isPresent, isBlankSequence] using h
      rw [hs]
      exact .empty
    | arr items => exact .sequence (by simpa [isPresent, isBlankSequence] using h)
    | _ => cases h

theorem isPresent_of_not_blank {value : Json} (h : ¬ Blank value) : isPresent value = true := by
  rw [blank_iff, Bool.not_eq_false, Bool.and_eq_true] at h
  exact h.1

namespace Scopes

variable {scopes scopes' : Scopes} {key : String}

/-- A request gives the values that are not blank. -/
theorem requested?_eq_some_iff {value : Json} :
    scopes.requested? key = some value ↔
      Fields.get? scopes.request key = some value ∧ ¬ Blank value := by
  rw [requested?, Option.filter_eq_some_iff, blank_iff, Bool.not_eq_false]

/-- A request gives nothing where it has nothing but blank values. -/
theorem requested?_eq_none_iff :
    scopes.requested? key = none ↔
      ∀ value, Fields.get? scopes.request key = some value → Blank value := by
  constructor
  · intro h value hvalue
    by_contra hblank
    rw [requested?_eq_some_iff.mpr ⟨hvalue, hblank⟩] at h
    cases h
  · intro h
    rw [Option.eq_none_iff_forall_ne_some]
    intro value hvalue
    obtain ⟨hvalue, hblank⟩ := requested?_eq_some_iff.mp hvalue
    exact hblank (h value hvalue)

/-- Scopes resolve alike in which every parameter has the same value. -/
theorem resolve_congr (h : ∀ key, (scopes.requested? key).or (scopes.preset? key) =
    (scopes'.requested? key).or (scopes'.preset? key)) : scopes.resolve = scopes'.resolve := by
  funext key parent root index
  rw [resolve, resolve, winning?, winning?, h]

end Scopes

/-- **The environment that a request collapses into**: it holds what the request gives, and what
the environment holds otherwise. -/
structure Overlays (request environment collapsed : Fields Json) : Prop where
  given : ∀ key value, Fields.get? request key = some value → ¬ Blank value →
    Fields.get? collapsed key = some value
  otherwise : ∀ key, (∀ value, Fields.get? request key = some value → Blank value) →
    Fields.get? collapsed key = Fields.get? environment key

/-- A request and its environment resolve like the environment that they collapse into. -/
theorem Overlays.resolve_eq {request environment collapsed : Fields Json}
    (h : Overlays request environment collapsed) :
    Scopes.resolve ⟨environment, request⟩ = Scopes.resolve ⟨collapsed, []⟩ := by
  refine Scopes.resolve_congr fun key => ?_
  show _ = Scopes.preset? ⟨collapsed, []⟩ key
  cases hgiven : Scopes.requested? ⟨environment, request⟩ key with
  | some value =>
    obtain ⟨hvalue, hblank⟩ := Scopes.requested?_eq_some_iff.mp hgiven
    have hpreset : Scopes.preset? ⟨collapsed, []⟩ key = some value := by
      rw [Scopes.preset?, h.given key value hvalue hblank, Option.filter_some,
        isPresent_of_not_blank hblank, if_pos rfl]
    rw [hpreset]
    rfl
  | none =>
    have hcollapsed := h.otherwise key (Scopes.requested?_eq_none_iff.mp hgiven)
    rw [Option.none_or, Scopes.preset?, Scopes.preset?, hcollapsed]

/-- **The request collapses into the environment.** From every position, a template has the same
result or the same error over a request and its environment as over no request and the environment
that they collapse into. So it has when blank parameters of the request are added or left out, and
when values of the environment change that the request shadows. -/
theorem scopes_collapse (reader : Reader) (files request environment template : Fields Json)
    (parent : Option (Fields Json)) (here : Position) :
    let run (request environment : Fields Json) : Except TemplateError (Fields Json) :=
      (walkTemplate ⟨reader, files, ⟨environment, request⟩⟩ template parent).outcome here
    (∀ collapsed, Overlays request environment collapsed →
      run request environment = run [] collapsed) ∧
    (∀ request', (∀ key value, ¬ Blank value →
        (Fields.get? request' key = some value ↔ Fields.get? request key = some value)) →
      run request' environment = run request environment) ∧
    ∀ environment', (∀ key, (∀ value, Fields.get? request key = some value → Blank value) →
        Fields.get? environment' key = Fields.get? environment key) →
      run request environment' = run request environment := by
  have hrun : ∀ scopes scopes' : Scopes, scopes.resolve = scopes'.resolve →
      (walkTemplate ⟨reader, files, scopes⟩ template parent).outcome here =
        (walkTemplate ⟨reader, files, scopes'⟩ template parent).outcome here := by
    intro scopes scopes' h
    rw [walkTemplate, walkTemplate, resolver_congr h]
  intro run
  refine ⟨fun collapsed h => hrun _ _ h.resolve_eq, fun request' h => ?_, fun environment' h => ?_⟩
  · refine hrun _ _ (Scopes.resolve_congr fun key => ?_)
    have hrequested : Scopes.requested? ⟨environment, request'⟩ key =
        Scopes.requested? ⟨environment, request⟩ key := by
      ext value
      rw [Scopes.requested?_eq_some_iff, Scopes.requested?_eq_some_iff]
      exact and_congr_left fun hblank => h key value hblank
    rw [hrequested]
    rfl
  · refine hrun _ _ (Scopes.resolve_congr fun key => ?_)
    show (Scopes.requested? ⟨environment, request⟩ key).or _ = _
    cases hgiven : Scopes.requested? ⟨environment, request⟩ key with
    | some value => rfl
    | none =>
      have henvironment := h key (Scopes.requested?_eq_none_iff.mp hgiven)
      rw [Option.none_or, Option.none_or, Scopes.preset?, Scopes.preset?, henvironment]

/-- The names in the request are blank, so that those of the environment count, and its image
shadows that of the environment. -/
theorem scopes_collapse_of_blank_names :
    let request : Fields Json := [("names", .arr [.str "", .str ""]), ("image", .str "centos")]
    let environment : Fields Json :=
      [("names", .arr [.str "a", .str "b"]), ("image", .str "ubuntu")]
    let collapsed : Fields Json :=
      [("names", .arr [.str "a", .str "b"]), ("image", .str "centos")]
    let template := templateOf [("vm", .obj [("type", .str ResourceKind.server.name),
      ("properties", .obj [("name", .single "get_param" (.arr [.str "names", .ofNat 1])),
        ("image", .single "get_param" (.str "image"))])])]
    let resolved : Fields Json := [("vm", .obj [("type", .str ResourceKind.server.name),
      ("properties", .obj [("name", .str "b"), ("image", .str "centos")])])]
    Overlays request environment collapsed ∧
      (walkTemplate ⟨Yaml.read?, [], ⟨collapsed, []⟩⟩ template none).outcome .start =
        .ok resolved ∧
      (walkTemplate ⟨Yaml.read?, [], ⟨environment, request⟩⟩ template none).outcome .start =
        .ok resolved ∧
      (walkTemplate ⟨Yaml.read?, [], ⟨environment, [("image", .str "centos")]⟩⟩ template
        none).outcome .start = .ok resolved ∧
      (walkTemplate ⟨Yaml.read?, [], ⟨[("names", .arr [.str "a", .str "b"])], request⟩⟩ template
        none).outcome .start = .ok resolved := by
  have hcollapsed : (walkTemplate
      ⟨Yaml.read?, [], ⟨[("names", .arr [.str "a", .str "b"]), ("image", .str "centos")], []⟩⟩
      (templateOf [("vm", .obj [("type", .str ResourceKind.server.name),
        ("properties", .obj [("name", .single "get_param" (.arr [.str "names", .ofNat 1])),
          ("image", .single "get_param" (.str "image"))])])]) none).outcome .start =
      .ok [("vm", .obj [("type", .str ResourceKind.server.name),
        ("properties", .obj [("name", .str "b"), ("image", .str "centos")])])] := by
    decide +kernel
  intro request environment collapsed template resolved
  have hnames : Blank (.arr [.str "", .str ""]) := .sequence (by simp)
  have himage : ¬ Blank (.str "centos") := by
    rw [blank_iff]
    decide
  -- Where the request gives nothing, the look-up is not for the image.
  have hother : ∀ key, (∀ value, Fields.get? request key = some value → Blank value) →
      "image" ≠ key := by
    rintro key h rfl
    exact himage (h _ rfl)
  have hoverlays : Overlays request environment collapsed := by
    refine ⟨fun key value hvalue hblank => ?_, fun key h => ?_⟩
    · rcases List.mem_pair.mp (Fields.mem_of_get? hvalue) with h | h <;> cases h
      · exact absurd hnames hblank
      · rfl
    · simp [collapsed, environment, Fields.get?_cons, hother key h]
  have hrun := (scopes_collapse Yaml.read? [] request environment template none .start).1
    collapsed hoverlays
  have hrequest := (scopes_collapse Yaml.read? [] request environment template none .start).2.1
    [("image", .str "centos")] fun key value hblank => by
      simp only [request, Fields.get?_cons, Fields.get?_nil]
      by_cases hkey : "names" = key
      · subst hkey
        rw [if_neg (by decide), if_pos rfl]
        constructor
        · rintro ⟨⟩
        · rintro ⟨⟩
          exact absurd hnames hblank
      · rw [if_neg hkey]
  have henvironment := (scopes_collapse Yaml.read? [] request environment template none
      .start).2.2
    [("names", .arr [.str "a", .str "b"])] fun key h => by
      simp [environment, Fields.get?_cons, hother key h]
  refine ⟨hoverlays, hcollapsed, hrun.trans hcollapsed, ?_, ?_⟩
  · exact hrequest.trans (hrun.trans hcollapsed)
  · exact henvironment.trans (hrun.trans hcollapsed)

end HeatPlacement.Heat
