import HeatPlacement.Proofs.Parameters.Scopes

/-!
# Precedence of scopes

A parameter has the value of the first scope that holds a usable value under its name: the
properties injected by the enclosing resource, the request, the environment. Which values are usable
differs from scope to scope. Once a scope has won, nothing behind it is looked at.

* `Scope`: where a parameter may be held; `Scopes.binding?`: what a scope holds under a name
* `Counts`: the values that are usable in a scope
* `Scopes.Wins`: the first scope with a usable value
* `Scopes.winning?_eq_some_iff`, `Scopes.winning?_eq_none_iff`: a look-up finds the scope that wins
* `Scopes.resolve_by_precedence`: **the value of a parameter**, and what it does not depend on
-/

namespace HeatPlacement.Heat

/-! ### Scopes and their values -/

/-- Where a parameter may be held. -/
inductive Scope where
  /-- The properties injected by the enclosing resource. -/
  | injected
  /-- The caller's parameters. -/
  | request
  | environment
  deriving DecidableEq, Repr

/-- The place of a scope among the others: a parameter is looked up from the lowest rank on. -/
def Scope.rank : Scope → Nat
  | .injected => 0
  | .request => 1
  | .environment => 2

/-- **Values that count.** Null and the empty text never do. Among the injected properties neither
does a reference back to the name itself, and in the request a sequence of empty texts. -/
inductive Counts (key : String) : Scope → Json → Prop where
  | injected {value : Json} (hnull : value ≠ .null) (hempty : value ≠ .str "")
    (hself : value.member? "get_param" ≠ some (.str key)) : Counts key .injected value
  | request {value : Json} (hblank : ¬ Blank value) : Counts key .request value
  | environment {value : Json} (hnull : value ≠ .null) (hempty : value ≠ .str "") :
    Counts key .environment value

theorem isPresent_iff {value : Json} :
    isPresent value = true ↔ value ≠ .null ∧ value ≠ .str "" := by
  cases value <;> simp [isPresent]

/-- No index selects the whole value. -/
theorem select_none (value : Json) : select value none = some value := by
  cases value <;> rfl

/-- A value that is no sequence has no items to select. -/
theorem select_of_not_arr {value : Json} (h : value.asArr? = none) (index : Option Nat) :
    select value index = some value := by
  cases value with
  | arr items => cases h
  | _ => cases index <;> rfl

namespace Scopes

section Lookup

variable (scopes : Scopes) (parent : Option (Fields Json)) (key : String)

/-- What a scope holds under a name, usable or not. -/
def binding? : Scope → Option Json
  | .injected => parent.bind fun fields => Fields.get? fields key
  | .request => Fields.get? scopes.request key
  | .environment => Fields.get? scopes.environment key

/-- What a scope holds under a name, if it is usable. -/
def usable? : Scope → Option Json
  | .injected => injected? parent key
  | .request => scopes.requested? key
  | .environment => scopes.preset? key

/-- **The scope that wins**: it holds a value that counts, and no scope in front of it does. -/
structure Wins (scope : Scope) (value : Json) : Prop where
  bound : scopes.binding? parent key scope = some value
  counts : Counts key scope value
  foremost : ∀ (earlier : Scope) (other : Json), earlier.rank < scope.rank →
    scopes.binding? parent key earlier = some other → ¬ Counts key earlier other

end Lookup

variable {scopes scopes' : Scopes} {parent parent' : Option (Fields Json)} {key : String}
  {scope : Scope} {value : Json}

/-- What is usable in a scope is what counts there. -/
theorem usable?_eq_some_iff :
    scopes.usable? parent key scope = some value ↔
      scopes.binding? parent key scope = some value ∧ Counts key scope value := by
  cases scope with
  | injected =>
    rw [usable?, injected?, Option.filter_eq_some_iff, Bool.and_eq_true, isPresent_iff,
      Bool.not_eq_true', ← Bool.not_eq_true, isSelfReference_iff]
    refine and_congr_right fun _ => ⟨fun h => .injected h.1.1 h.1.2 h.2, fun h => ?_⟩
    cases h with
    | injected hnull hempty hself => exact ⟨⟨hnull, hempty⟩, hself⟩
  | request =>
    rw [usable?, requested?_eq_some_iff]
    refine and_congr_right fun _ => ⟨.request, fun h => ?_⟩
    cases h with
    | request hblank => exact hblank
  | environment =>
    rw [usable?, preset?, Option.filter_eq_some_iff, isPresent_iff]
    refine and_congr_right fun _ => ⟨fun h => .environment h.1 h.2, fun h => ?_⟩
    cases h with
    | environment hnull hempty => exact ⟨hnull, hempty⟩

theorem usable?_eq_none_iff :
    scopes.usable? parent key scope = none ↔
      ∀ other, scopes.binding? parent key scope = some other → ¬ Counts key scope other := by
  rw [Option.eq_none_iff_forall_ne_some]
  refine forall_congr' fun other => ?_
  rw [Ne, usable?_eq_some_iff, not_and]

/-- The scope that wins is the first usable one. -/
theorem wins_iff :
    scopes.Wins parent key scope value ↔
      scopes.usable? parent key scope = some value ∧
        ∀ earlier : Scope, earlier.rank < scope.rank →
          scopes.usable? parent key earlier = none := by
  constructor
  · rintro ⟨hbound, hcounts, hforemost⟩
    exact ⟨usable?_eq_some_iff.mpr ⟨hbound, hcounts⟩, fun earlier hrank =>
      usable?_eq_none_iff.mpr fun other => hforemost earlier other hrank⟩
  · rintro ⟨husable, hforemost⟩
    obtain ⟨hbound, hcounts⟩ := usable?_eq_some_iff.mp husable
    exact ⟨hbound, hcounts, fun earlier other hrank =>
      usable?_eq_none_iff.mp (hforemost earlier hrank) other⟩

/-- **A look-up finds the scope that wins.** -/
theorem winning?_eq_some_iff :
    scopes.winning? key parent = some value ↔ ∃ scope, scopes.Wins parent key scope value := by
  have hwinning : scopes.winning? key parent = (scopes.usable? parent key .injected).or
      ((scopes.usable? parent key .request).or (scopes.usable? parent key .environment)) := rfl
  rw [hwinning, Option.or_eq_some_iff, Option.or_eq_some_iff]
  simp only [wins_iff]
  constructor
  · rintro (h | ⟨hinjected, h | ⟨hrequest, h⟩⟩)
    · exact ⟨.injected, h, fun earlier hrank => absurd hrank (Nat.not_lt_zero _)⟩
    · refine ⟨.request, h, fun earlier hrank => ?_⟩
      cases earlier with
      | injected => exact hinjected
      | request | environment => exact absurd hrank (by decide)
    · refine ⟨.environment, h, fun earlier hrank => ?_⟩
      cases earlier with
      | injected => exact hinjected
      | request => exact hrequest
      | environment => exact absurd hrank (by decide)
  · rintro ⟨scope, h, hforemost⟩
    cases scope with
    | injected => exact .inl h
    | request => exact .inr ⟨hforemost .injected (by decide), .inl h⟩
    | environment =>
      exact .inr ⟨hforemost .injected (by decide), .inr ⟨hforemost .request (by decide), h⟩⟩

theorem winning?_eq_none_iff :
    scopes.winning? key parent = none ↔ ∀ scope value, ¬ scopes.Wins parent key scope value := by
  rw [Option.eq_none_iff_forall_ne_some, forall_comm]
  refine forall_congr' fun value => ?_
  rw [Ne, winning?_eq_some_iff, not_exists]

/-- A parameter has the value of the scope that wins, or an item of it. -/
theorem resolve_of_wins (h : scopes.Wins parent key scope value) {root : String}
    (hroot : root ≠ hostMarker) (index : Option Nat) :
    scopes.resolve key parent root index = select value index := by
  simp only [resolve, if_neg hroot, winning?_eq_some_iff.mpr ⟨scope, h⟩]

/-- Without a usable value, only the zone marker gives one. -/
theorem resolve_of_no_wins (h : ∀ scope value, ¬ scopes.Wins parent key scope value)
    {root : String} (hroot : root ≠ hostMarker) (index : Option Nat) :
    scopes.resolve key parent root index =
      if root = zoneMarker then some unresolvedZone else none := by
  simp only [resolve, if_neg hroot, winning?_eq_none_iff.mpr h]

/-- A scope wins by what it and the scopes in front of it hold under the name. -/
theorem Wins.of_binding_eq (h : scopes.Wins parent key scope value)
    (hsame : ∀ upper : Scope, upper.rank ≤ scope.rank →
      scopes'.binding? parent' key upper = scopes.binding? parent key upper) :
    scopes'.Wins parent' key scope value where
  bound := (hsame scope le_rfl).trans h.bound
  counts := h.counts
  foremost := by
    intro earlier other hrank hother
    rw [hsame earlier hrank.le] at hother
    exact h.foremost earlier other hrank hother

/-- **The value of a parameter.** With the host marker as its root it is the name itself. Otherwise
it is what the winning scope holds, or the item of it at the index, and it stays the same whatever
the scopes behind hold, and whatever any scope holds under other names. If no scope wins, it is the
unresolved zone with the zone marker as its root, and absent with any other. -/
theorem resolve_by_precedence (scopes : Scopes) (parent : Option (Fields Json))
    (key root : String) (index : Option Nat) :
    (root = hostMarker → scopes.resolve key parent root index = some (.str key)) ∧
    (root ≠ hostMarker →
      (∀ scope value, scopes.Wins parent key scope value →
        ((index = none ∨ value.asArr? = none) →
          scopes.resolve key parent root index = some value) ∧
        (∀ items i, value = .arr items → index = some i →
          scopes.resolve key parent root index = items[i]?) ∧
        ∀ (scopes' : Scopes) (parent' : Option (Fields Json)),
          (∀ upper : Scope, upper.rank ≤ scope.rank →
            scopes'.binding? parent' key upper = scopes.binding? parent key upper) →
          scopes'.resolve key parent' root index = scopes.resolve key parent root index) ∧
      ((∀ scope value, ¬ scopes.Wins parent key scope value) →
        scopes.resolve key parent root index =
          if root = zoneMarker then some (.str "None") else none)) := by
  refine ⟨fun hroot => if_pos hroot, fun hroot => ⟨fun scope value hwins => ?_, fun hnone =>
    resolve_of_no_wins hnone hroot index⟩⟩
  rw [resolve_of_wins hwins hroot]
  refine ⟨?_, ?_, fun scopes' parent' hsame =>
    resolve_of_wins (hwins.of_binding_eq hsame) hroot index⟩
  · rintro (rfl | hitem)
    · exact select_none value
    · exact select_of_not_arr hitem index
  · rintro items i rfl rfl
    rfl

/-- The injected property only refers to its own name, so that the request wins. The item is that of
the request, whatever the environment holds under the name and the request under others. -/
theorem resolve_by_precedence_of_self_reference :
    let parent : Fields Json := [("names", .single "get_param" (.str "names"))]
    let names : Json := .arr [.str "vm-a", .str "vm-b"]
    let scopes : Scopes := ⟨[("names", .str "preset")], [("names", names)]⟩
    let other : Scopes := ⟨[("names", .null)], [("image", .str "centos"), ("names", names)]⟩
    scopes.Wins (some parent) "names" .request names ∧
      scopes.resolve "names" (some parent) "names" (some 1) = some (.str "vm-b") ∧
      scopes.resolve "names" (some parent) "names" (some 2) = none ∧
      other.resolve "names" (some parent) "names" (some 1) = some (.str "vm-b") ∧
      scopes.resolve "names" (some parent) hostMarker (some 1) = some (.str "names") ∧
      scopes.resolve "zone" (some parent) zoneMarker none = some (.str "None") := by
  intro parent names scopes other
  have hwins : scopes.Wins (some parent) "names" .request names := by
    rw [wins_iff]
    refine ⟨by decide, fun earlier hrank => ?_⟩
    cases earlier with
    | injected => decide
    | request | environment => exact absurd hrank (by decide)
  have hnone : ∀ scope value, ¬ scopes.Wins (some parent) "zone" scope value :=
    winning?_eq_none_iff.mp (by decide)
  have hroot : "names" ≠ hostMarker := by decide
  have hitem := fun index => ((resolve_by_precedence scopes (some parent) "names" "names"
    index).2 hroot).1 .request names hwins
  have hsame : ∀ upper : Scope, upper.rank ≤ Scope.request.rank →
      other.binding? (some parent) "names" upper = scopes.binding? (some parent) "names" upper := by
    intro upper hrank
    cases upper with
    | injected => rfl
    | request => decide
    | environment => exact absurd hrank (by decide)
  have hsecond := (hitem (some 1)).2.1 _ 1 rfl rfl
  refine ⟨hwins, hsecond, (hitem (some 2)).2.1 _ 2 rfl rfl, ?_, ?_, ?_⟩
  · exact ((hitem (some 1)).2.2 other (some parent) hsame).trans hsecond
  · exact (resolve_by_precedence scopes (some parent) "names" hostMarker (some 1)).1 rfl
  · exact ((resolve_by_precedence scopes (some parent) "zone" zoneMarker none).2 (by decide)).2
      hnone

end Scopes

end HeatPlacement.Heat
