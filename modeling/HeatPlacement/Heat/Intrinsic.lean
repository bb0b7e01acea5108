import HeatPlacement.Heat.Vocabulary
import HeatPlacement.Text.Blank
import HeatPlacement.Text.Unsigned

/-!
# Shapes of property values

Every property value has exactly one `Shape`, so that the resolution is a match on it.

* `Intrinsic.ofFields?`: the intrinsic function call that an object spells, if any
* `ParamRef.ofArgument?`: a parameter name with an optional index
* `Shape.of`: the shape of a value
* `isSelfReference`, `paramName?`, `asIndex?`: three questions asked of a single value
-/

namespace HeatPlacement.Heat

/-- The second element of the list form of `get_param`. -/
inductive ParamIndex where
  /-- There is no second element. -/
  | absent
  | literal (n : Nat)
  /-- An object, usually a nested `get_param`. -/
  | reference (fields : Fields Json)
  /-- Neither an integer nor an object. -/
  | invalid (value : Json)
  deriving DecidableEq, Repr

/-- The argument of `get_param`. -/
structure ParamRef where
  name : String
  index : ParamIndex
  deriving DecidableEq, Repr

/-- The intrinsic functions, in the order in which an object is searched for them. -/
inductive IntrinsicName where
  | getParam
  | getAttr
  | getResource
  | strReplace
  deriving DecidableEq, Repr

/-- The key that calls the function. -/
def IntrinsicName.key : IntrinsicName → String
  | .getParam => "get_param"
  | .getAttr => "get_attr"
  | .getResource => "get_resource"
  | .strReplace => "str_replace"

/-- A call of an intrinsic function. -/
inductive Intrinsic where
  | getParam (ref : ParamRef)
  /-- A resource name, an attribute, and more. -/
  | getAttr (path : List Json)
  | getResource (name : String)
  /-- The body with its `template` and `params`. -/
  | strReplace (body : Fields Json)
  /-- A function whose argument has the wrong shape. -/
  | malformed (function : IntrinsicName)
  deriving DecidableEq, Repr

namespace ParamIndex

/-- The index that a value gives. -/
def ofJson : Json → ParamIndex
  | .num n =>
    match n.toIndex? with
    | some i => .literal i
    | none => .invalid (.num n)
  | .str s =>
    match Text.unsigned? s.toList with
    | some i => .literal i
    | none => .invalid (.str s)
  | .obj fields => .reference fields
  | value => .invalid value

end ParamIndex

namespace ParamRef

/-- A name, or a list that starts with a name and may go on with an index. -/
def ofArgument? : Json → Option ParamRef
  | .str name => some ⟨name, .absent⟩
  | .arr [.str name] => some ⟨name, .absent⟩
  | .arr (.str name :: index :: _) => some ⟨name, .ofJson index⟩
  | _ => none

end ParamRef

namespace Intrinsic

/-- The call of one function with one argument. -/
def ofCall (function : IntrinsicName) (argument : Json) : Intrinsic :=
  match function, argument with
  | .getParam, argument =>
    match ParamRef.ofArgument? argument with
    | some ref => .getParam ref
    | none => .malformed .getParam
  | .getAttr, .arr path => .getAttr path
  | .getResource, .str name => .getResource name
  | .strReplace, .obj body => .strReplace body
  | function, _ => .malformed function

/-- The call that an object spells: the first function whose key it has, whatever the argument. -/
def ofFields? (fields : Fields Json) : Option Intrinsic :=
  [IntrinsicName.getParam, .getAttr, .getResource, .strReplace].findSome? fun function =>
    (Fields.get? fields function.key).map (ofCall function)

end Intrinsic

/-- The shape of a property value. -/
inductive Shape where
  | null
  /-- A string, number or boolean. -/
  | scalar (value : Json)
  | sequence (items : List Json)
  | reference (call : Intrinsic)
  /-- An object that is plain data. -/
  | map (fields : Fields Json)
  deriving DecidableEq, Repr

namespace Shape

/-- The shape of a value. -/
def of : Json → Shape
  | .null => .null
  | .arr items => .sequence items
  | .obj fields =>
    match Intrinsic.ofFields? fields with
    | some call => .reference call
    | none => .map fields
  | value => .scalar value

/-- Whether the value calls an intrinsic function. -/
def isReference : Shape → Bool
  | .reference _ => true
  | _ => false

end Shape

/-- Whether a value is a `get_param` of the name under which it stands. -/
def isSelfReference (value : Json) (key : String) : Bool :=
  (value.member? IntrinsicName.getParam.key).bind Json.asStr? == some key

theorem isSelfReference_iff {value : Json} {key : String} :
    isSelfReference value key = true ↔ value.member? "get_param" = some (.str key) := by
  rw [isSelfReference, IntrinsicName.key, beq_iff_eq, Option.bind_eq_some_iff]
  constructor
  · rintro ⟨argument, hargument, hkey⟩
    cases argument with
    | str text =>
      cases hkey
      exact hargument
    | _ => cases hkey
  · intro h
    exact ⟨_, h, rfl⟩

/-- The parameter that a `get_param` refers to, whatever its index. -/
def paramName? (value : Json) : Option String :=
  match Shape.of value with
  | .reference (.getParam ref) => some ref.name
  | _ => none

/-- A value as an integer: a number, or a string that holds one between blanks. -/
def asIndex? : Json → Option Nat
  | .num n => n.toIndex?
  | .str s => Text.unsigned? (Text.trim s.toList)
  | _ => none

end HeatPlacement.Heat
