import HeatPlacement.Proofs.Fields

/-!
# Parts of a value

The parts of a value are the value itself, and the parts of its items or of the values of its
members.

* `Json.Contains`: a value and one of its parts
* `Json.Everywhere`: what holds of every part
* `Json.everywhere_arr_iff`, `Json.everywhere_obj_iff`: **part by part**, along the value
* `Json.Everywhere.get?`, `Json.Everywhere.insert`: members that are looked up and that are set
-/

namespace HeatPlacement.Json

/-- A value contains itself and what its items or members contain. -/
inductive Contains : Json → Json → Prop where
  | self (value : Json) : Contains value value
  | item {items : List Json} {item part : Json} :
    item ∈ items → Contains item part → Contains (.arr items) part
  | member {fields : List (String × Json)} {entry : String × Json} {part : Json} :
    entry ∈ fields → Contains entry.2 part → Contains (.obj fields) part

/-- No sequence is an item of its own. -/
theorem arr_not_mem_self (items : List Json) : arr items ∉ items := by
  intro h
  have hlt := List.sizeOf_lt_of_mem h
  rw [arr.sizeOf_spec] at hlt
  omega

/-- Every part of a value has the property. -/
def Everywhere (P : Json → Prop) (value : Json) : Prop := ∀ part, value.Contains part → P part

variable {P : Json → Prop}

theorem Everywhere.self {value : Json} (h : value.Everywhere P) : P value := h value (.self value)

/-- A value is nowhere in another one. -/
theorem everywhere_ne_iff {value other : Json} :
    value.Everywhere (· ≠ other) ↔ ¬ value.Contains other :=
  ⟨fun h hother => h other hother rfl, fun h _ hpart heq => h (heq ▸ hpart)⟩

/-- A value with no part but itself. -/
theorem everywhere_iff_of_atom {value : Json} (h : ∀ part, value.Contains part → part = value) :
    value.Everywhere P ↔ P value :=
  ⟨Everywhere.self, fun hvalue part hpart => h part hpart ▸ hvalue⟩

@[simp] theorem everywhere_null_iff : null.Everywhere P ↔ P null :=
  everywhere_iff_of_atom fun _ hpart => by cases hpart; rfl

@[simp] theorem everywhere_bool_iff {b : Bool} : (bool b).Everywhere P ↔ P (bool b) :=
  everywhere_iff_of_atom fun _ hpart => by cases hpart; rfl

@[simp] theorem everywhere_num_iff {n : Number} : (num n).Everywhere P ↔ P (num n) :=
  everywhere_iff_of_atom fun _ hpart => by cases hpart; rfl

@[simp] theorem everywhere_str_iff {s : String} : (str s).Everywhere P ↔ P (str s) :=
  everywhere_iff_of_atom fun _ hpart => by cases hpart; rfl

/-- **Along an array.** -/
@[simp] theorem everywhere_arr_iff {items : List Json} :
    (arr items).Everywhere P ↔ P (.arr items) ∧ ∀ item ∈ items, item.Everywhere P := by
  constructor
  · exact fun h => ⟨h.self, fun item hitem part hpart => h part (.item hitem hpart)⟩
  · rintro ⟨hself, hitems⟩ part hpart
    cases hpart with
    | self => exact hself
    | item hitem hpart => exact hitems _ hitem part hpart

/-- **Along an object.** -/
@[simp] theorem everywhere_obj_iff {fields : Fields Json} :
    (obj fields).Everywhere P ↔ P (.obj fields) ∧ ∀ entry ∈ fields, entry.2.Everywhere P := by
  constructor
  · exact fun h => ⟨h.self, fun entry hentry part hpart => h part (.member hentry hpart)⟩
  · rintro ⟨hself, hfields⟩ part hpart
    cases hpart with
    | self => exact hself
    | member hentry hpart => exact hfields _ hentry part hpart

namespace Everywhere

theorem item {items : List Json} {item : Json} (h : (arr items).Everywhere P)
    (hitem : item ∈ items) : item.Everywhere P :=
  (everywhere_arr_iff.mp h).2 item hitem

theorem member {fields : Fields Json} {entry : String × Json} (h : (obj fields).Everywhere P)
    (hentry : entry ∈ fields) : entry.2.Everywhere P :=
  (everywhere_obj_iff.mp h).2 entry hentry

/-- The value under a name. -/
theorem get? {fields : Fields Json} {key : String} {value : Json}
    (h : (obj fields).Everywhere P) (hvalue : Fields.get? fields key = some value) :
    value.Everywhere P :=
  h.member (Fields.mem_of_get? hvalue)

/-- The object under a name. -/
theorem get?_obj {fields inner : Fields Json} {key : String} (h : (obj fields).Everywhere P)
    (hinner : (Fields.get? fields key).bind asObj? = some inner) : (obj inner).Everywhere P := by
  obtain ⟨value, hvalue, hobj⟩ := Option.bind_eq_some_iff.mp hinner
  cases value <;> cases hobj
  exact h.get? hvalue

/-- The only object there is. -/
theorem of_mem_some {fields : Fields Json} (h : (obj fields).Everywhere P) :
    ∀ other ∈ some fields, (obj other).Everywhere P := by
  rintro _ ⟨⟩
  exact h

/-- A member that is set. -/
theorem insert {fields : Fields Json} {key : String} {value : Json}
    (h : (obj fields).Everywhere P) (hvalue : value.Everywhere P)
    (hself : P (.obj (Fields.insert fields key value))) :
    (obj (Fields.insert fields key value)).Everywhere P := by
  refine everywhere_obj_iff.mpr ⟨hself, fun entry hentry => ?_⟩
  rcases Fields.mem_of_mem_insert hentry with rfl | hentry
  · exact hvalue
  · exact h.member hentry

end Everywhere

end HeatPlacement.Json
