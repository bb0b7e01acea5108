import HeatPlacement.Heat.Parameter
import HeatPlacement.Heat.Stack

/-!
# Evaluation of intrinsic functions

* `Context`: what an evaluation may look at
* `Context.indexOf`: the number that an index stands for
* `Context.getParam`, `Context.getAttr`, `Context.strReplace`, `Context.evaluate`: the calls
* `Context.injected`: a `resource_def`'s properties with their references evaluated
* `Context.ordinary?`, `Context.assignedHost`: the value of an ordinary property, and a host
-/

namespace HeatPlacement.Heat

/-- Whether the group cursor, when there is one, indexes the results of `get_param`. -/
inductive CursorMode where
  /-- The cursor takes the place of any index that the call gives. -/
  | apply
  | ignore
  deriving DecidableEq, Repr, Inhabited

/-- What an evaluation may look at: the fixed scopes, the templates under resolution and the
replica under expansion. -/
structure Context where
  scopes : Scopes
  stack : ResourceStack
  /-- The number of the replica while a group is expanded. -/
  cursor : Option Nat
  deriving DecidableEq, Repr, Inhabited

namespace Context

/-- The number that an index stands for; `{get_param: index}` is the cursor. -/
def indexOf (ctx : Context) (parent : Option (Fields Json)) : ParamIndex → Option Nat
  | .absent => none
  | .literal n => some n
  | .reference fields =>
    match Intrinsic.ofFields? fields with
    | some (.getParam ref) =>
      if ref.name = "index" then ctx.cursor
      else (ctx.scopes.resolvePlain ref.name parent).bind asIndex?
    | _ => none
  | .invalid _ => none

/-- The value of a `get_param`. Under a cursor that applies, a sequence gives the cursor's item
and any other value itself. -/
def getParam (ctx : Context) (ref : ParamRef) (parent : Option (Fields Json))
    (mode : CursorMode) : Option Json :=
  match mode, ctx.cursor with
  | .apply, some cursor =>
    (ctx.scopes.resolvePlain ref.name parent).bind fun value =>
      match value with
      | .arr items => items[cursor]?
      | value => some value
  | _, _ => ctx.scopes.resolve ref.name parent ref.name (ctx.indexOf parent ref.index)

/-- The value of a `get_attr`: the resource on the stack and the attribute, as a pair. -/
def getAttr (ctx : Context) : List Json → Option Json
  | .str name :: detail :: _ =>
    (ctx.stack.find? name).map fun resource => .arr [resource, detail]
  | _ => none

/-- The value of a `str_replace`: that of the first entry of its `params`. -/
def strReplace (ctx : Context) (body : Fields Json) (parent : Option (Fields Json))
    (mode : CursorMode) : Option Json :=
  match (Fields.get? body "params").bind Json.asObj? with
  | some ((_, first) :: _) =>
    match Shape.of first with
    | .reference (.getParam ref) => ctx.getParam ref parent mode
    | .null => none
    | _ => some first
  | _ => none

/-- The value of a call among the given resources. -/
def evaluate (ctx : Context) (call : Intrinsic) (resources : Fields Json)
    (parent : Option (Fields Json)) (mode : CursorMode) : Option Json :=
  match call with
  | .getParam ref => ctx.getParam ref parent mode
  | .getAttr path => ctx.getAttr path
  | .getResource name => Fields.get? resources name
  | .strReplace body => ctx.strReplace body parent mode
  | .malformed _ => none

/-- The properties that a `resource_def` injects: references are evaluated without the cursor,
which the nested template applies itself, and all else is copied. -/
def injected (ctx : Context) (properties : Fields Json) (parent : Option (Fields Json))
    (resources : Fields Json) : Fields Json :=
  Fields.mapValues (fun value =>
    match Shape.of value with
    | .reference call => (ctx.evaluate call resources parent .ignore).getD .null
    | _ => value) properties

/-- The value of an ordinary property. Null is dropped, references are evaluated with the cursor,
and a sequence led by a reference is evaluated item by item. -/
def ordinary? (ctx : Context) (resources : Fields Json) (scope : Fields Json) (value : Json) :
    Option Json :=
  let run (call : Intrinsic) : Json := (ctx.evaluate call resources (some scope) .apply).getD .null
  match Shape.of value with
  | .null => none
  | .scalar _ | .map _ => some value
  | .reference call => some (run call)
  | .sequence items =>
    match items with
    | [] => some value
    | first :: _ =>
      if (Shape.of first).isReference then
        some (.arr (items.map fun item =>
          match Shape.of item with
          | .reference call => run call
          | _ => item))
      else some value

/-- The host of a `str_replace` with the given parameters, and its index if it has one. -/
def assignedHost (ctx : Context) (params scope : Fields Json) : Option Json × Option Nat :=
  match (Fields.get? params hostMarker).map Shape.of with
  | some (.reference (.getParam ref)) =>
    let index := ctx.indexOf (some scope) ref.index
    (ctx.scopes.resolve ref.name (some scope) hostMarker index, index)
  | _ => (none, none)

end Context

end HeatPlacement.Heat
