import HeatPlacement.Heat.Intrinsic

/-!
# Parameters and their scopes

A parameter is looked up in the properties injected by the enclosing resource, then in the
caller's request, then in the environment. The first scope that holds a usable value wins.

* `Scopes.resolve`: the value of a parameter, with the two markers as roots
* `Scopes.resolvePlain`: the same for a parameter that is its own root
* `select`: an item of a sequence
-/

namespace HeatPlacement.Heat

/-- The scopes that are fixed for a whole request. -/
structure Scopes where
  environment : Fields Json
  request : Fields Json
  deriving DecidableEq, Repr, Inhabited

/-- Null and the empty string count as absent. -/
def isPresent : Json → Bool
  | .null => false
  | .str s => s ≠ ""
  | _ => true

/-- A sequence of empty strings only; the empty sequence is one too. -/
def isBlankSequence : Json → Bool
  | .arr items => items.all fun item => item == .str ""
  | _ => false

/-- The item of a sequence at the index; a value that is no sequence, or no index, is kept. -/
def select (value : Json) (index : Option Nat) : Option Json :=
  match index, value with
  | some i, .arr items => items[i]?
  | _, value => some value

namespace Scopes

/-- What a request parameter holds, unless it is blank. -/
def requested? (scopes : Scopes) (key : String) : Option Json :=
  (Fields.get? scopes.request key).filter fun value => isPresent value && !isBlankSequence value

/-- What an environment parameter holds, unless it is blank. -/
def preset? (scopes : Scopes) (key : String) : Option Json :=
  (Fields.get? scopes.environment key).filter isPresent

/-- The value injected under a key, unless it is blank or only points back at its own key. -/
def injected? (parent : Option (Fields Json)) (key : String) : Option Json :=
  (parent.bind fun fields => Fields.get? fields key).filter fun value =>
    isPresent value && !isSelfReference value key

/-- The value of the first scope that has one. -/
def winning? (scopes : Scopes) (key : String) (parent : Option (Fields Json)) : Option Json :=
  (injected? parent key).or ((scopes.requested? key).or (scopes.preset? key))

/-- The value of a parameter. With the host marker as root it is the key itself; with the zone
marker as root a parameter without value is the unresolved zone. -/
def resolve (scopes : Scopes) (key : String) (parent : Option (Fields Json)) (root : String)
    (index : Option Nat) : Option Json :=
  if root = hostMarker then some (.str key)
  else
    match scopes.winning? key parent with
    | some value => select value index
    | none => if root = zoneMarker then some unresolvedZone else none

/-- The value of a parameter that is its own root, without index. -/
def resolvePlain (scopes : Scopes) (key : String) (parent : Option (Fields Json)) : Option Json :=
  scopes.resolve key parent key none

end Scopes

end HeatPlacement.Heat
