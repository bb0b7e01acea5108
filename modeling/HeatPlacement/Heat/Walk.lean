import HeatPlacement.Heat.Document
import HeatPlacement.Heat.Evaluation

/-!
# Walks through templates

A resolution is a walk: it may fail, and it carries along where it is.

* `Position`: the templates under resolution, the replica under expansion and the depth
* `Walk`: a computation that may fail and that changes the position; `Walk.outcome` is its answer
* `Walk.look`: what an evaluation may look at
* `Walk.within`, `Walk.withCursor`, `Walk.descend`: a walk inside a template, for a replica, and one
  level deeper
-/

namespace HeatPlacement.Heat

/-- Where a resolution is. -/
structure Position where
  /-- The resources of the templates under resolution. -/
  stack : ResourceStack
  /-- The number of the replica while a group is expanded. -/
  cursor : Option Nat
  /-- The number of templates and sibling resources around it. -/
  depth : Nat
  deriving DecidableEq, Repr, Inhabited

/-- Outside every template. -/
def Position.start : Position := ⟨.empty, none, 0⟩

/-- A computation that may fail and that changes the position. A failure keeps the position as it
is then. -/
abbrev Walk (α : Type) := ExceptT TemplateError (StateM Position) α

namespace Walk

variable {α β : Type}

/-- The answer of a walk from a position. -/
def outcome (walk : Walk α) (here : Position) : Except TemplateError α := (walk here).1

/-- A walk that looks at nothing. -/
def ofExcept (result : Except TemplateError α) : Walk α := fun here => (result, here)

/-- What an evaluation may look at now. -/
def look (scopes : Scopes) : Walk Context := fun here =>
  (.ok ⟨scopes, here.stack, here.cursor⟩, here)

/-- Run a walk inside a template, and leave the template whether it fails or not. -/
def within (frame : Fields Json) (body : Walk α) : Walk α := fun here =>
  let (result, after) := body { here with stack := here.stack.push frame }
  (result, { after with stack := after.stack.popNested })

/-- Run a walk for a replica, and take up the former cursor whether it fails or not. -/
def withCursor (cursor : Nat) (body : Walk α) : Walk α := fun here =>
  let (result, after) := body { here with cursor := some cursor }
  (result, { after with cursor := here.cursor })

/-- Run a walk one level deeper. At the depth limit it fails instead. -/
def descend (body : Walk α) : Walk α := fun here =>
  if depthLimit ≤ here.depth then (.error .recursionLimit, here)
  else
    let (result, after) := body { here with depth := here.depth + 1 }
    (result, { after with depth := after.depth - 1 })

/-! ### Steps of a walk -/

theorem bind_apply (walk : Walk α) (next : α → Walk β) (here : Position) :
    (walk >>= next) here =
      match walk here with
      | (.ok a, there) => next a there
      | (.error e, there) => (.error e, there) := by
  show ExceptT.bindCont next (walk here).1 (walk here).2 = _
  obtain ⟨result, there⟩ := walk here
  cases result <;> rfl

theorem within_apply (frame : Fields Json) (body : Walk α) (here : Position) :
    within frame body here =
      ((body { here with stack := here.stack.push frame }).1,
        { (body { here with stack := here.stack.push frame }).2 with
          stack := (body { here with stack := here.stack.push frame }).2.stack.popNested }) := rfl

theorem withCursor_apply (cursor : Nat) (body : Walk α) (here : Position) :
    withCursor cursor body here =
      ((body { here with cursor := some cursor }).1,
        { (body { here with cursor := some cursor }).2 with cursor := here.cursor }) := rfl

/-- At the depth limit a deeper walk fails on the spot. -/
theorem descend_of_le {here : Position} (h : depthLimit ≤ here.depth) (body : Walk α) :
    descend body here = (.error .recursionLimit, here) := if_pos h

/-- Below the depth limit a deeper walk runs one level deeper. -/
theorem descend_of_lt {here : Position} (h : here.depth < depthLimit) (body : Walk α) :
    descend body here =
      ((body { here with depth := here.depth + 1 }).1,
        { (body { here with depth := here.depth + 1 }).2 with
          depth := (body { here with depth := here.depth + 1 }).2.depth - 1 }) :=
  if_neg (Nat.not_le.mpr h)

end Walk

end HeatPlacement.Heat
