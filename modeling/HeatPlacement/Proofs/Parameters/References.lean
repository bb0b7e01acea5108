import HeatPlacement.Heat.Evaluation

/-!
# References to parameters

A `get_param` names a parameter, and what follows the name in a list may stand for the number of an
item. While a group is expanded, the number of the replica takes its place, and the item is then
taken from the value that was looked up without a number.

* `NamesParameter`, `ReadsParameter`: the arguments that name a parameter, and the values that have
  such an argument, with what follows the name
* `Shape.of_single`, `Shape.of_readsParameter`: the calls that mappings spell
* `Context.Numbers`: the numbers that a value stands for
* `Context.indexOf_given_eq_some_iff`: **the number of an item** is what follows the name
* `Context.getParam_of_cursor`: a cursor that applies takes its place
* `Context.evaluate_eq_resolve`: **the value of a reference** is that of one look-up
-/

namespace HeatPlacement.Heat

/-! ### Spellings -/

/-- **The arguments that name a parameter**: the name, alone or first in a list, together with what
follows it there. Nothing counts behind that. -/
inductive NamesParameter : Json → String → Option Json → Prop where
  | alone (key : String) : NamesParameter (.str key) key none
  | first (key : String) : NamesParameter (.arr [.str key]) key none
  | followed (key : String) (following : Json) (rest : List Json) :
    NamesParameter (.arr (.str key :: following :: rest)) key (some following)

/-- **A reference to a parameter**: a mapping with a `get_param` that names it. -/
def ReadsParameter (value : Json) (key : String) (following : Option Json) : Prop :=
  ∃ argument, value.member? "get_param" = some argument ∧ NamesParameter argument key following

/-- The index that is given by what follows a name. -/
def ParamIndex.given (following : Option Json) : ParamIndex :=
  (following.map ParamIndex.ofJson).getD .absent

theorem NamesParameter.ofArgument? {argument : Json} {key : String} {following : Option Json}
    (h : NamesParameter argument key following) :
    ParamRef.ofArgument? argument = some ⟨key, ParamIndex.given following⟩ := by
  cases h <;> rfl

/-- Every argument that is understood names a parameter. -/
theorem namesParameter_of_ofArgument? {argument : Json} {ref : ParamRef}
    (h : ParamRef.ofArgument? argument = some ref) :
    ∃ following, NamesParameter argument ref.name following ∧
      ref.index = ParamIndex.given following := by
  unfold ParamRef.ofArgument? at h
  split at h
  · cases h
    exact ⟨none, .alone _, rfl⟩
  · cases h
    exact ⟨none, .first _, rfl⟩
  · cases h
    exact ⟨_, .followed _ _ _, rfl⟩
  · cases h

/-- A mapping with a function as its only key calls this function. -/
theorem Shape.of_single (function : IntrinsicName) (argument : Json) :
    Shape.of (.single function.key argument) = .reference (Intrinsic.ofCall function argument) := by
  cases function <;>
    simp [Shape.of, Json.single, Intrinsic.ofFields?, IntrinsicName.key, Fields.get?_cons]

/-- A `get_param` is looked for before the other functions. -/
theorem Intrinsic.ofFields?_of_getParam {fields : Fields Json} {argument : Json}
    (h : Fields.get? fields "get_param" = some argument) :
    ofFields? fields = some (ofCall .getParam argument) := by
  rw [ofFields?, List.findSome?_cons, IntrinsicName.key, h, Option.map_some]

/-- A call of `get_param` has an argument that is understood. -/
theorem Intrinsic.ofFields?_eq_getParam_iff {fields : Fields Json} {ref : ParamRef} :
    ofFields? fields = some (.getParam ref) ↔
      ∃ argument, Fields.get? fields "get_param" = some argument ∧
        ParamRef.ofArgument? argument = some ref := by
  constructor
  · intro h
    obtain ⟨function, -, hfunction⟩ := List.exists_of_findSome?_eq_some h
    obtain ⟨argument, hargument, hcall⟩ := Option.map_eq_some_iff.mp hfunction
    unfold ofCall at hcall
    split at hcall
    · split at hcall
      · rename_i found hfound
        cases hcall
        exact ⟨argument, hargument, hfound⟩
      · cases hcall
    all_goals cases hcall
  · rintro ⟨argument, hargument, href⟩
    rw [ofFields?_of_getParam hargument, ofCall, href]

/-- Only a mapping refers to a parameter. -/
theorem ReadsParameter.asObj?_ne_none {value : Json} {key : String} {following : Option Json}
    (h : ReadsParameter value key following) : value.asObj? ≠ none := by
  obtain ⟨argument, hargument, -⟩ := h
  intro hnone
  rw [Json.member?, hnone] at hargument
  cases hargument

/-- The call of a mapping that refers to a parameter. -/
theorem ReadsParameter.ofFields? {fields : Fields Json} {key : String} {following : Option Json}
    (h : ReadsParameter (.obj fields) key following) :
    Intrinsic.ofFields? fields = some (.getParam ⟨key, ParamIndex.given following⟩) := by
  obtain ⟨argument, hargument, hname⟩ := h
  exact Intrinsic.ofFields?_eq_getParam_iff.mpr ⟨argument, hargument, hname.ofArgument?⟩

/-- **The call that a reference spells.** -/
theorem Shape.of_readsParameter {value : Json} {key : String} {following : Option Json}
    (h : ReadsParameter value key following) :
    Shape.of value = .reference (.getParam ⟨key, ParamIndex.given following⟩) := by
  cases value with
  | obj fields => rw [Shape.of, h.ofFields?]
  | _ => exact absurd rfl h.asObj?_ne_none

/-! ### Numbers of items -/

/-- **The numbers that a value stands for**: its own, that of a text, the number of the replica
under the name `index`, and the number that a parameter holds under any other name. -/
inductive Context.Numbers (ctx : Context) (parent : Option (Fields Json)) : Json → Nat → Prop where
  | literal {n : Number} {i : Nat} (h : n.toIndex? = some i) : Numbers ctx parent (.num n) i
  | text {s : String} {i : Nat} (h : Text.unsigned? s.toList = some i) :
    Numbers ctx parent (.str s) i
  | replica {value : Json} {following : Option Json} {i : Nat}
    (hvalue : ReadsParameter value "index" following) (hcursor : ctx.cursor = some i) :
    Numbers ctx parent value i
  | parameter {value found : Json} {key : String} {following : Option Json} {i : Nat}
    (hvalue : ReadsParameter value key following) (hkey : key ≠ "index")
    (hfound : ctx.scopes.resolvePlain key parent = some found) (hindex : asIndex? found = some i) :
    Numbers ctx parent value i

namespace Context

variable {ctx : Context} {parent : Option (Fields Json)}

/-- The number of a reference: that of the replica, or that of a parameter. -/
theorem indexOf_reference_eq_some_iff {fields : Fields Json} {i : Nat} :
    ctx.indexOf parent (.reference fields) = some i ↔
      ∃ ref, Intrinsic.ofFields? fields = some (.getParam ref) ∧
        (ref.name = "index" ∧ ctx.cursor = some i ∨
          ref.name ≠ "index" ∧ ∃ found,
            ctx.scopes.resolvePlain ref.name parent = some found ∧ asIndex? found = some i) := by
  simp only [indexOf]
  split
  · rename_i ref hcall
    simp only [hcall, Option.some.injEq, Intrinsic.getParam.injEq, exists_eq_left']
    split
    · rename_i hkey
      simp only [hkey, ne_eq, not_true_eq_false, false_and, or_false, true_and]
    · rename_i hkey
      simp only [hkey, ne_eq, not_false_eq_true, false_and, false_or, true_and,
        Option.bind_eq_some_iff]
  · rename_i hcall
    refine iff_of_false nofun ?_
    rintro ⟨ref, href, -⟩
    exact hcall ref href

/-- The number that a value gives is the one that it stands for. -/
theorem indexOf_ofJson_eq_some_iff {value : Json} {i : Nat} :
    ctx.indexOf parent (.ofJson value) = some i ↔ ctx.Numbers parent value i := by
  cases value with
  | num n =>
    have hindex : ctx.indexOf parent (.ofJson (.num n)) = n.toIndex? := by
      rw [ParamIndex.ofJson]
      cases n.toIndex? <;> rfl
    rw [hindex]
    refine ⟨.literal, fun h => ?_⟩
    cases h with
    | literal h => exact h
    | replica hvalue | parameter hvalue => exact absurd rfl hvalue.asObj?_ne_none
  | str s =>
    have hindex : ctx.indexOf parent (.ofJson (.str s)) = Text.unsigned? s.toList := by
      rw [ParamIndex.ofJson]
      cases Text.unsigned? s.toList <;> rfl
    rw [hindex]
    refine ⟨.text, fun h => ?_⟩
    cases h with
    | text h => exact h
    | replica hvalue | parameter hvalue => exact absurd rfl hvalue.asObj?_ne_none
  | obj fields =>
    rw [ParamIndex.ofJson, indexOf_reference_eq_some_iff]
    constructor
    · rintro ⟨⟨key, index⟩, hcall, hnumber⟩
      obtain ⟨argument, hargument, href⟩ := Intrinsic.ofFields?_eq_getParam_iff.mp hcall
      obtain ⟨following, hname, -⟩ := namesParameter_of_ofArgument? href
      have hvalue : ReadsParameter (.obj fields) key following := ⟨argument, hargument, hname⟩
      rcases hnumber with ⟨rfl, hcursor⟩ | ⟨hkey, found, hfound, hindex⟩
      · exact .replica hvalue hcursor
      · exact .parameter hvalue hkey hfound hindex
    · intro h
      cases h with
      | replica hvalue hcursor => exact ⟨_, hvalue.ofFields?, .inl ⟨rfl, hcursor⟩⟩
      | parameter hvalue hkey hfound hindex =>
        exact ⟨_, hvalue.ofFields?, .inr ⟨hkey, _, hfound, hindex⟩⟩
  | null | bool | arr =>
    refine iff_of_false nofun fun h => ?_
    cases h with
    | replica hvalue | parameter hvalue => exact absurd rfl hvalue.asObj?_ne_none

/-- **The number of an item** is that of what follows the name. -/
theorem indexOf_given_eq_some_iff {following : Option Json} {i : Nat} :
    ctx.indexOf parent (.given following) = some i ↔
      ∃ value, following = some value ∧ ctx.Numbers parent value i := by
  cases following with
  | none => exact iff_of_false nofun nofun
  | some value =>
    simp only [Option.some.injEq, exists_eq_left']
    exact indexOf_ofJson_eq_some_iff

/-! ### Values of references -/

/-- **Under a cursor that applies**, the item of what is looked up without a number is what a
look-up with the cursor as the number gives. -/
theorem getParam_of_cursor {cursor : Nat} (hcursor : ctx.cursor = some cursor) (ref : ParamRef)
    (parent : Option (Fields Json)) :
    ctx.getParam ref parent .apply =
      ctx.scopes.resolve ref.name parent ref.name (some cursor) := by
  simp only [getParam, hcursor, Scopes.resolvePlain, Scopes.resolve]
  by_cases hhost : ref.name = hostMarker
  · simp only [if_pos hhost, Option.bind_some]
  · simp only [if_neg hhost]
    cases ctx.scopes.winning? ref.name parent with
    | none =>
      dsimp only
      split <;> rfl
    | some value => cases value <;> rfl

/-- Without a cursor that applies, the number is that of the reference. -/
theorem getParam_of_no_cursor {mode : CursorMode} (h : mode = .ignore ∨ ctx.cursor = none)
    (ref : ParamRef) (parent : Option (Fields Json)) :
    ctx.getParam ref parent mode =
      ctx.scopes.resolve ref.name parent ref.name (ctx.indexOf parent ref.index) := by
  rcases h with rfl | hcursor
  · rfl
  · cases mode <;> simp only [getParam, hcursor]

/-- **The value of a reference** is that of one look-up of the name. The number of the item is the
cursor if there is one and it applies, whatever follows the name. Otherwise it is the number that
stands behind the name, and there is none if nothing stands there or what does is no number. -/
theorem evaluate_eq_resolve {value : Json} {key : String} {following : Option Json}
    (h : ReadsParameter value key following) (ctx : Context) (resources : Fields Json)
    (parent : Option (Fields Json)) (mode : CursorMode) :
    ∃ call index, Shape.of value = .reference call ∧
      ctx.evaluate call resources parent mode = ctx.scopes.resolve key parent key index ∧
      (∀ cursor, mode = .apply → ctx.cursor = some cursor → index = some cursor) ∧
      ((mode = .ignore ∨ ctx.cursor = none) →
        ∀ i, index = some i ↔ ∃ spelled, following = some spelled ∧
          ctx.Numbers parent spelled i) := by
  have hcall := Shape.of_readsParameter h
  by_cases hmode : mode = .ignore ∨ ctx.cursor = none
  · refine ⟨_, ctx.indexOf parent (.given following), hcall, getParam_of_no_cursor hmode _ _, ?_,
      fun _ _ => indexOf_given_eq_some_iff⟩
    rintro cursor rfl hcursor
    rw [hcursor] at hmode
    rcases hmode with hmode | hmode <;> cases hmode
  · rw [not_or] at hmode
    obtain ⟨cursor, hcursor⟩ := Option.ne_none_iff_exists'.mp hmode.2
    have happly : mode = .apply := by
      cases mode with
      | apply => rfl
      | ignore => exact absurd rfl hmode.1
    subst happly
    refine ⟨_, some cursor, hcall, getParam_of_cursor hcursor _ _, ?_, fun h => ?_⟩
    · rintro _ - h
      exact hcursor.symm.trans h
    · exact absurd h (not_or.mpr hmode)

/-- The number of the replica stands behind the name, so that it is the number of the item with and
without the cursor applied. The parameter `index` does not count. -/
theorem evaluate_eq_resolve_of_replica :
    let value : Json :=
      .single "get_param" (.arr [.str "names", .single "get_param" (.str "index")])
    let ctx : Context := ⟨⟨[], [("names", .arr [.str "vm-a", .str "vm-b"]), ("index", .ofNat 0)]⟩,
      .empty, some 1⟩
    ReadsParameter value "names" (some (.single "get_param" (.str "index"))) ∧
      ∀ mode, ∃ call, Shape.of value = .reference call ∧
        ctx.evaluate call [] none mode = some (.str "vm-b") := by
  intro value ctx
  have hvalue : ReadsParameter value "names" (some (.single "get_param" (.str "index"))) :=
    ⟨_, rfl, .followed "names" _ []⟩
  have hitem : ctx.scopes.resolve "names" none "names" (some 1) = some (.str "vm-b") := by
    decide
  refine ⟨hvalue, fun mode => ?_⟩
  obtain ⟨call, index, hcall, hresolved, hcursor, hnumber⟩ :=
    evaluate_eq_resolve hvalue ctx [] none mode
  have hindex : index = some 1 := by
    cases mode with
    | apply => exact hcursor 1 rfl rfl
    | ignore =>
      exact (hnumber (.inl rfl) 1).mpr ⟨_, rfl, .replica ⟨_, rfl, .alone "index"⟩ rfl⟩
  rw [hindex, hitem] at hresolved
  exact ⟨call, hcall, hresolved⟩

/-- Behind the name, a name that is first in a list is a number too, whatever follows it there. -/
theorem listed_name_counts_as_number :
    let names : Json := .arr [.str "vm-a", .str "vm-b"]
    let ctx : Context := ⟨⟨[], [("names", names), ("second", .ofNat 1)]⟩, .empty, some 1⟩
    ∀ name ∈ ["index", "second"],
      let following : Json := .single "get_param" (.arr [.str name, .ofNat 0])
      (∀ alone, following ≠ .single "get_param" (.str alone)) ∧
        ∃ call, Shape.of (.single "get_param" (.arr [.str "names", following])) = .reference call ∧
          ctx.evaluate call [] none .ignore = some (.str "vm-b") ∧
          ctx.evaluate call [] none .ignore ≠ ctx.scopes.resolve "names" none "names" none := by
  intro names ctx name hname following
  refine ⟨fun alone => by simp [following, Json.single],
    .getParam ⟨"names", .reference [("get_param", .arr [.str name, .ofNat 0])]⟩, ?_⟩
  rcases List.mem_cons.mp hname with rfl | hname
  · decide
  · cases List.mem_singleton.mp hname
    decide

end Context

end HeatPlacement.Heat
