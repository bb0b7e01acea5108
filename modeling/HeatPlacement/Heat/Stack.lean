import HeatPlacement.Json.Basic

/-!
# The resource stack

One frame of resources per template under resolution, innermost first. The outermost frame stays
for the whole resolution, so that sibling lookups from the root template keep working after nested
templates have returned.

* `ResourceStack.push`, `ResourceStack.popNested`: enter and leave a template
* `ResourceStack.find?`: the innermost resource with a name
-/

namespace HeatPlacement.Heat

/-- Frames of resources, innermost first. -/
structure ResourceStack where
  frames : List (Fields Json)
  deriving DecidableEq, Repr, Inhabited

namespace ResourceStack

/-- The stack without frames. -/
def empty : ResourceStack := ⟨[]⟩

/-- Enter a frame. -/
def push (stack : ResourceStack) (frame : Fields Json) : ResourceStack := ⟨frame :: stack.frames⟩

/-- Leave the innermost frame unless it is the last one. -/
def popNested (stack : ResourceStack) : ResourceStack :=
  match stack.frames with
  | _ :: outer :: frames => ⟨outer :: frames⟩
  | _ => stack

/-- The number of frames. -/
def size (stack : ResourceStack) : Nat := stack.frames.length

/-- Whether there is no frame. -/
def isEmpty (stack : ResourceStack) : Bool := stack.frames.isEmpty

/-- The resource with a name in the innermost frame that has one. -/
def find? (stack : ResourceStack) (name : String) : Option Json :=
  stack.frames.findSome? fun frame => Fields.get? frame name

@[simp] theorem find?_push (stack : ResourceStack) (frame : Fields Json) (name : String) :
    (stack.push frame).find? name = (Fields.get? frame name).or (stack.find? name) := by
  simp only [find?, push, List.findSome?_cons]
  cases Fields.get? frame name <;> rfl

/-- A frame that was entered on a stack with frames is the one that is left. -/
theorem popNested_push {stack : ResourceStack} (h : stack.frames ≠ []) (frame : Fields Json) :
    (stack.push frame).popNested = stack := by
  obtain ⟨frames⟩ := stack
  cases frames with
  | nil => exact absurd rfl h
  | cons outer rest => rfl

/-- The outermost frame stays. -/
theorem popNested_push_empty (frame : Fields Json) :
    (empty.push frame).popNested = ⟨[frame]⟩ := rfl

end ResourceStack

end HeatPlacement.Heat
