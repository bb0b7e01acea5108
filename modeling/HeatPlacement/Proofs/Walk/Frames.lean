import HeatPlacement.Heat.Stack
import Mathlib.Data.List.Induction

/-!
# Frames and the steps that enter and leave them

Frames are entered and left in any order. More may be left than were entered, since the outermost
frame stays. Which frames there are is read off the steps: a frame remains as long as the count of
frames has not come back to what it was before the frame was entered.

* `Step`, `run`: steps that enter and leave frames; `count`: the number of frames after them
* `frameAt?`: the frame at a height
* `Remains`: the frames that remain, told from the counts alone
* `find?_eq_some_iff`: a look-up finds the highest frame that binds the name
* `frameAt?_run_empty_eq_some_iff`: **the frame at a height** is the one that remains from a step at
  this count
* `WellNested`, `run_wellNested`: where every frame is left again, the stack is as it was
* `frames_follow_steps`: the outermost frame, the number of frames and **all look-ups**
-/

namespace HeatPlacement.Heat.ResourceStack

/-! ### Steps -/

/-- A step of a stack. -/
inductive Step where
  /-- Enter a frame. -/
  | push (frame : Fields Json)
  /-- Leave the innermost frame, unless it is the last one. -/
  | popNested
  deriving DecidableEq, Repr

/-- The stack after a step. -/
def step (stack : ResourceStack) : Step → ResourceStack
  | .push frame => stack.push frame
  | .popNested => stack.popNested

/-- The stack after many steps. -/
def run (stack : ResourceStack) (steps : List Step) : ResourceStack := steps.foldl step stack

/-- The number of frames after a step. To leave a frame lowers it, but not from one to zero. -/
def Step.count (n : Nat) : Step → Nat
  | .push _ => n + 1
  | .popNested => if n ≤ 1 then n else n - 1

/-- The number of frames after many steps on the empty stack. -/
def count (steps : List Step) : Nat := steps.foldl Step.count 0

variable {stack : ResourceStack} {steps : List Step} {frame : Fields Json} {name : String}

@[simp] theorem run_nil (stack : ResourceStack) : stack.run [] = stack := rfl

@[simp] theorem run_cons (stack : ResourceStack) (first : Step) (steps : List Step) :
    stack.run (first :: steps) = (stack.step first).run steps := rfl

theorem run_append (stack : ResourceStack) (steps more : List Step) :
    stack.run (steps ++ more) = (stack.run steps).run more := List.foldl_append

theorem count_append_singleton (steps : List Step) (last : Step) :
    count (steps ++ [last]) = last.count (count steps) := by
  rw [count, List.foldl_append]
  rfl

/-! ### The number of frames -/

@[simp] theorem size_push (stack : ResourceStack) (frame : Fields Json) :
    (stack.push frame).size = stack.size + 1 := rfl

theorem size_popNested (stack : ResourceStack) :
    stack.popNested.size = if stack.size ≤ 1 then stack.size else stack.size - 1 := by
  obtain ⟨frames⟩ := stack
  match frames with
  | [] | [_] => rfl
  | _ :: outer :: rest => simp [popNested, size]

theorem isEmpty_eq_false_iff : stack.isEmpty = false ↔ stack.frames ≠ [] := by
  rw [isEmpty, ← Bool.not_eq_true, List.isEmpty_iff]

theorem size_step (stack : ResourceStack) (next : Step) :
    (stack.step next).size = next.count stack.size := by
  cases next with
  | push frame => rfl
  | popNested => exact size_popNested stack

/-- **The number of frames** is the count of the steps. -/
theorem size_run_empty (steps : List Step) : (empty.run steps).size = count steps :=
  (List.foldl_hom size fun stack next => (size_step stack next).symm).symm

/-! ### Frames by their height -/

/-- The frame at a height. The outermost one is at height zero. -/
def frameAt? (stack : ResourceStack) (height : Nat) : Option (Fields Json) :=
  stack.frames.reverse[height]?

theorem frameAt?_eq_none_iff {height : Nat} :
    stack.frameAt? height = none ↔ stack.size ≤ height := by
  rw [frameAt?, List.getElem?_eq_none_iff, List.length_reverse, size]

theorem lt_size_of_frameAt? {height : Nat} (h : stack.frameAt? height = some frame) :
    height < stack.size := by
  by_contra hle
  rw [frameAt?_eq_none_iff.mpr (Nat.not_lt.mp hle)] at h
  cases h

theorem frameAt?_push (stack : ResourceStack) (frame : Fields Json) (height : Nat) :
    (stack.push frame).frameAt? height =
      if height = stack.size then some frame else stack.frameAt? height := by
  rw [frameAt?, frameAt?, push, List.reverse_cons, size, ← List.length_reverse]
  rcases Nat.lt_trichotomy height stack.frames.reverse.length with hlt | rfl | hlt
  · rw [if_neg (Nat.ne_of_lt hlt), List.getElem?_append_left hlt]
  · rw [if_pos rfl, List.getElem?_concat_length]
  · rw [if_neg (Nat.ne_of_gt hlt), List.getElem?_eq_none (Nat.le_of_lt hlt),
      List.getElem?_eq_none]
    rwa [List.length_append, List.length_singleton]

/-- The frames that are not left keep their heights. -/
theorem frameAt?_popNested (stack : ResourceStack) (height : Nat) :
    stack.popNested.frameAt? height =
      if height < stack.popNested.size then stack.frameAt? height else none := by
  split
  · rename_i hheight
    obtain ⟨frames⟩ := stack
    match frames with
    | [] | [_] => rfl
    | top :: outer :: rest =>
      have hlt : height < (outer :: rest).reverse.length := by
        rw [List.length_reverse]
        exact hheight
      rw [frameAt?, frameAt?, List.reverse_cons, List.getElem?_append_left hlt]
      rfl
  · rename_i hheight
    exact frameAt?_eq_none_iff.mpr (Nat.not_lt.mp hheight)

/-- A step leaves the frames below the new number where they are, and may enter one above them. -/
theorem frameAt?_step_eq_some_iff {next : Step} {height : Nat} :
    (stack.step next).frameAt? height = some frame ↔
      (stack.frameAt? height = some frame ∧ height < (stack.step next).size) ∨
        (height = stack.size ∧ next = .push frame) := by
  cases next with
  | push entered =>
    rw [step, frameAt?_push, size_push]
    split
    · rename_i hheight
      have hnone : stack.frameAt? stack.size = none := frameAt?_eq_none_iff.mpr (Nat.le_refl _)
      simp [hheight, hnone]
    · rename_i hheight
      have hbelow (h : stack.frameAt? height = some frame) : height < stack.size + 1 :=
        Nat.lt_succ_of_lt (lt_size_of_frameAt? h)
      simpa [hheight] using hbelow
  | popNested =>
    rw [step, frameAt?_popNested]
    simp [and_comm]

/-- **A look-up finds the highest frame** that binds the name. -/
theorem find?_eq_some_iff {resource : Json} :
    stack.find? name = some resource ↔
      ∃ height frame, stack.frameAt? height = some frame ∧
        Fields.get? frame name = some resource ∧
        ∀ higher other, height < higher → stack.frameAt? higher = some other →
          Fields.get? other name = none := by
  obtain ⟨frames⟩ := stack
  induction frames with
  | nil => simp [find?, frameAt?]
  | cons top rest ih =>
    have hpush : (⟨top :: rest⟩ : ResourceStack) = push ⟨rest⟩ top := rfl
    simp only [hpush, find?_push, Option.or_eq_some_iff, ih, frameAt?_push]
    constructor
    · rintro (htop | ⟨htop, height, frame, hframe, hresource, habove⟩)
      · refine ⟨size ⟨rest⟩, top, if_pos rfl, htop, fun higher other hhigher hother => ?_⟩
        rw [if_neg (Nat.ne_of_gt hhigher)] at hother
        exact absurd (lt_size_of_frameAt? hother) (Nat.lt_asymm hhigher)
      · have hheight := Nat.ne_of_lt (lt_size_of_frameAt? hframe)
        refine ⟨height, frame, (if_neg hheight).trans hframe, hresource,
          fun higher other hhigher hother => ?_⟩
        split at hother
        · cases hother
          exact htop
        · exact habove higher other hhigher hother
    · rintro ⟨height, frame, hframe, hresource, habove⟩
      split at hframe
      · cases hframe
        exact .inl hresource
      · have hheight := lt_size_of_frameAt? hframe
        refine .inr ⟨habove _ top hheight (if_pos rfl), height, frame, hframe, hresource,
          fun higher other hhigher hother => habove higher other hhigher ?_⟩
        exact (if_neg (Nat.ne_of_lt (lt_size_of_frameAt? hother))).trans hother

theorem mem_frames_iff : frame ∈ stack.frames ↔ ∃ height, stack.frameAt? height = some frame := by
  rw [← List.mem_reverse, List.mem_iff_getElem?]
  rfl

theorem find?_eq_none_iff :
    stack.find? name = none ↔
      ∀ height frame, stack.frameAt? height = some frame → Fields.get? frame name = none := by
  rw [find?, List.findSome?_eq_none_iff]
  simp only [mem_frames_iff]
  constructor
  · exact fun h height frame hframe => h frame ⟨height, hframe⟩
  · rintro h frame ⟨height, hframe⟩
    exact h height frame hframe

/-! ### The outermost frame -/

/-- A step on a stack with frames leaves the outermost one. -/
theorem step_kept (h : stack.isEmpty = false) (next : Step) :
    (stack.step next).isEmpty = false ∧ (stack.step next).frameAt? 0 = stack.frameAt? 0 := by
  have hsize : 0 < stack.size := List.length_pos_iff.mpr (isEmpty_eq_false_iff.mp h)
  have hnext : 0 < (stack.step next).size := by
    rw [size_step]
    cases next with
    | push frame => exact Nat.succ_pos _
    | popNested =>
      rw [Step.count]
      split <;> omega
  refine ⟨isEmpty_eq_false_iff.mpr (List.length_pos_iff.mp hnext), ?_⟩
  cases next with
  | push frame => exact (frameAt?_push stack frame 0).trans (if_neg (Nat.ne_of_lt hsize))
  | popNested => exact (frameAt?_popNested stack 0).trans (if_pos hnext)

/-- **The outermost frame stays**, whatever is entered and left. -/
theorem run_kept (h : stack.isEmpty = false) (steps : List Step) :
    (stack.run steps).isEmpty = false ∧ (stack.run steps).frameAt? 0 = stack.frameAt? 0 := by
  induction steps generalizing stack with
  | nil => exact ⟨h, rfl⟩
  | cons first rest ih =>
    obtain ⟨hne, houtermost⟩ := step_kept h first
    obtain ⟨hne', houtermost'⟩ := ih hne
    exact ⟨hne', houtermost'.trans houtermost⟩

/-- Once a frame was entered there is one. -/
theorem isEmpty_run_of_push (h : .push frame ∈ steps) (stack : ResourceStack) :
    (stack.run steps).isEmpty = false := by
  obtain ⟨before, after, rfl⟩ := List.append_of_mem h
  have hne : ((stack.run before).push frame).isEmpty = false := rfl
  rw [run_append, run_cons]
  exact (run_kept hne after).1

/-! ### Frames that remain -/

/-- The frame that the step at a position enters **remains** after the steps: the count never came
back to what it was before that step. -/
structure Remains (steps : List Step) (position : Nat) (frame : Fields Json) : Prop where
  pushed : steps[position]? = some (.push frame)
  above : ∀ later ≤ steps.length, position < later →
    count (steps.take position) < count (steps.take later)

instance (steps : List Step) (position : Nat) (frame : Fields Json) :
    Decidable (Remains steps position frame) :=
  decidable_of_iff (steps[position]? = some (.push frame) ∧ ∀ later ≤ steps.length,
      position < later → count (steps.take position) < count (steps.take later))
    ⟨fun h => ⟨h.1, h.2⟩, fun h => ⟨h.pushed, h.above⟩⟩

namespace Remains

variable {position position' : Nat} {frame' : Fields Json}

theorem lt_length (h : Remains steps position frame) : position < steps.length := by
  by_contra hle
  have hnone : steps[position]? = none := List.getElem?_eq_none (Nat.not_lt.mp hle)
  rw [h.pushed] at hnone
  cases hnone

/-- Of two frames that remain, the one that was entered later stands higher. -/
theorem count_lt_count_iff (h : Remains steps position frame)
    (h' : Remains steps position' frame') :
    count (steps.take position) < count (steps.take position') ↔ position < position' := by
  refine ⟨fun hcount => ?_, h.above position' (Nat.le_of_lt h'.lt_length)⟩
  rcases Nat.lt_trichotomy position position' with hlt | rfl | hlt
  · exact hlt
  · exact absurd hcount (Nat.lt_irrefl _)
  · exact absurd hcount (Nat.lt_asymm (h'.above position (Nat.le_of_lt h.lt_length) hlt))

/-- A frame remains after one more step iff it remained before and is below the new count. -/
theorem append_singleton_iff_of_lt (hlt : position < steps.length) {last : Step} :
    Remains (steps ++ [last]) position frame ↔
      Remains steps position frame ∧ count (steps.take position) < count (steps ++ [last]) := by
  have htake {i : Nat} (hi : i ≤ steps.length) : (steps ++ [last]).take i = steps.take i :=
    List.take_append_of_le_length hi
  have hall : (steps ++ [last]).take (steps.length + 1) = steps ++ [last] :=
    List.take_of_length_le (by simp)
  constructor
  · intro h
    have hpushed := h.pushed
    rw [List.getElem?_append_left hlt] at hpushed
    refine ⟨⟨hpushed, fun later hlater hposition => ?_⟩, ?_⟩
    · have habove := h.above later (by simp; omega) hposition
      rwa [htake (Nat.le_of_lt hlt), htake hlater] at habove
    · have habove := h.above (steps.length + 1) (by simp) (Nat.lt_succ_of_lt hlt)
      rwa [htake (Nat.le_of_lt hlt), hall] at habove
  · rintro ⟨h, hcount⟩
    refine ⟨by rw [List.getElem?_append_left hlt, h.pushed], fun later hlater hposition => ?_⟩
    rw [List.length_append, List.length_singleton, Nat.le_succ_iff] at hlater
    rw [htake (Nat.le_of_lt hlt)]
    rcases hlater with hlater | rfl
    · rw [htake hlater]
      exact h.above later hlater hposition
    · rwa [hall]

/-- The frame that the last step enters remains. -/
theorem append_push (steps : List Step) (frame : Fields Json) :
    Remains (steps ++ [.push frame]) steps.length frame := by
  refine ⟨List.getElem?_concat_length, fun later hlater hposition => ?_⟩
  obtain rfl : later = steps.length + 1 := by
    rw [List.length_append, List.length_singleton] at hlater
    omega
  rw [List.take_left, List.take_of_length_le (by simp), count_append_singleton]
  exact Nat.lt_succ_self _

/-- After one more step those frames remain that are below the new count, and the frame that the
step enters. -/
theorem append_singleton_iff {last : Step} :
    Remains (steps ++ [last]) position frame ↔
      (Remains steps position frame ∧ count (steps.take position) < count (steps ++ [last])) ∨
        (position = steps.length ∧ last = .push frame) := by
  constructor
  · intro h
    have hlength := h.lt_length
    rw [List.length_append, List.length_singleton, Nat.lt_succ_iff_lt_or_eq] at hlength
    rcases hlength with hlt | rfl
    · exact .inl ((append_singleton_iff_of_lt hlt).mp h)
    · have hpushed := h.pushed
      rw [List.getElem?_concat_length] at hpushed
      exact .inr ⟨rfl, Option.some.inj hpushed⟩
  · rintro (h | ⟨rfl, rfl⟩)
    · exact (append_singleton_iff_of_lt h.1.lt_length).mpr h
    · exact append_push steps frame

end Remains

/-- **The frame at a height** is the one that remains from a step at this count. -/
theorem frameAt?_run_empty_eq_some_iff {height : Nat} :
    (empty.run steps).frameAt? height = some frame ↔
      ∃ position, Remains steps position frame ∧ count (steps.take position) = height := by
  induction steps using List.reverseRecOn with
  | nil =>
    refine ⟨fun h => ?_, fun ⟨position, h, _⟩ => absurd h.lt_length (Nat.not_lt_zero _)⟩
    exact absurd (lt_size_of_frameAt? h) (Nat.not_lt_zero _)
  | append_singleton steps last ih =>
    rw [run_append, run_cons, run_nil, frameAt?_step_eq_some_iff, size_step, size_run_empty,
      ← count_append_singleton, ih]
    simp only [Remains.append_singleton_iff]
    constructor
    · rintro (⟨⟨position, h, rfl⟩, hcount⟩ | ⟨rfl, hlast⟩)
      · refine ⟨position, .inl ⟨h, hcount⟩, ?_⟩
        rw [List.take_append_of_le_length (Nat.le_of_lt h.lt_length)]
      · exact ⟨steps.length, .inr ⟨rfl, hlast⟩, by rw [List.take_left]⟩
    · rintro ⟨position, ⟨h, hcount⟩ | ⟨rfl, hlast⟩, rfl⟩
      · rw [List.take_append_of_le_length (Nat.le_of_lt h.lt_length)]
        exact .inl ⟨⟨position, h, rfl⟩, hcount⟩
      · rw [List.take_left]
        exact .inr ⟨rfl, hlast⟩

/-- **A look-up finds the frame that was entered last** among those that remain and bind the
name. -/
theorem find?_run_empty_eq_some_iff {resource : Json} :
    (empty.run steps).find? name = some resource ↔
      ∃ position frame, Remains steps position frame ∧
        Fields.get? frame name = some resource ∧
        ∀ later other, position < later → Remains steps later other →
          Fields.get? other name = none := by
  rw [find?_eq_some_iff]
  simp only [frameAt?_run_empty_eq_some_iff]
  constructor
  · rintro ⟨height, frame, ⟨position, h, rfl⟩, hresource, habove⟩
    refine ⟨position, frame, h, hresource, fun later other hlater hother => ?_⟩
    exact habove _ other ((h.count_lt_count_iff hother).mpr hlater) ⟨later, hother, rfl⟩
  · rintro ⟨position, frame, h, hresource, hlater⟩
    refine ⟨_, frame, ⟨position, h, rfl⟩, hresource, ?_⟩
    rintro higher other hhigher ⟨later, hother, rfl⟩
    exact hlater later other ((h.count_lt_count_iff hother).mp hhigher) hother

theorem find?_run_empty_eq_none_iff :
    (empty.run steps).find? name = none ↔
      ∀ position frame, Remains steps position frame → Fields.get? frame name = none := by
  rw [find?_eq_none_iff]
  simp only [frameAt?_run_empty_eq_some_iff]
  constructor
  · exact fun h position frame hremains => h _ frame ⟨position, hremains, rfl⟩
  · rintro h height frame ⟨position, hremains, rfl⟩
    exact h position frame hremains

/-! ### Frames that are entered and left again -/

/-- **Well-nested steps**: every frame that is entered is left again, and no other. -/
inductive WellNested : List Step → Prop
  | nil : WellNested []
  | nest {inner rest : List Step} (frame : Fields Json) (hinner : WellNested inner)
    (hrest : WellNested rest) : WellNested (.push frame :: (inner ++ .popNested :: rest))

/-- **Well-nested steps change nothing** on a stack with frames. -/
theorem run_wellNested (h : WellNested steps) (hne : stack.isEmpty = false) :
    stack.run steps = stack := by
  induction h generalizing stack with
  | nil => rfl
  | nest frame hinner hrest ihinner ihrest =>
    -- The frame lies on frames, so that it is the one that is left.
    have hleft : (stack.push frame).popNested = stack :=
      popNested_push (isEmpty_eq_false_iff.mp hne) frame
    rw [run_cons, run_append, step, ihinner rfl, run_cons, step, hleft, ihrest hne]

/-- **Frames follow the steps** that enter and leave them on an empty stack, in any order and any
number. Once a frame was entered there is always one, and the outermost stays the same. The number
of frames is the count of the steps, and at each height is the frame that remains from a step at
this count. A look-up finds what the frame that was entered last, among those that remain and bind
the name, has under it, and nothing iff none of them binds it. To enter a frame on others, to enter
and leave further ones and to leave it restores every look-up. -/
theorem frames_follow_steps (steps : List Step) :
    ((∃ frame, .push frame ∈ steps) → ∀ more,
      (empty.run (steps ++ more)).isEmpty = false ∧
      (empty.run (steps ++ more)).frameAt? 0 = (empty.run steps).frameAt? 0) ∧
    (empty.run steps).size = count steps ∧
    (∀ height frame, (empty.run steps).frameAt? height = some frame ↔
      ∃ position, Remains steps position frame ∧ count (steps.take position) = height) ∧
    (∀ name resource, (empty.run steps).find? name = some resource ↔
      ∃ position frame, Remains steps position frame ∧
        Fields.get? frame name = some resource ∧
        ∀ later other, position < later → Remains steps later other →
          Fields.get? other name = none) ∧
    (∀ name, (empty.run steps).find? name = none ↔
      ∀ position frame, Remains steps position frame → Fields.get? frame name = none) ∧
    ∀ stack : ResourceStack, stack.isEmpty = false → ∀ frame nested, WellNested nested →
      (stack.run (.push frame :: (nested ++ [.popNested]))).find? = stack.find? := by
  refine ⟨?_, size_run_empty steps, fun height frame => frameAt?_run_empty_eq_some_iff,
    fun name resource => find?_run_empty_eq_some_iff, fun name => find?_run_empty_eq_none_iff,
    fun stack hne frame nested hnested => ?_⟩
  · rintro ⟨frame, hpush⟩ more
    rw [run_append]
    exact run_kept (isEmpty_run_of_push hpush empty) more
  · rw [run_wellNested (.nest frame hnested .nil) hne]

/-- More frames are left than were entered, at first and in the end. The inner frame is left before
the last one is entered, and so its binding of the shared name is gone. -/
theorem frames_follow_steps_of_surplus :
    let outer : Fields Json := [("net", .str "outer"), ("vm", .str "outer")]
    let middle : Fields Json := [("vm", .str "middle")]
    let inner : Fields Json := [("vm", .str "inner"), ("group", .str "inner")]
    let last : Fields Json := [("volume", .str "last")]
    let steps : List Step := [.popNested, .push outer, .popNested, .push middle, .push inner,
      .popNested, .push last]
    let surplus := List.replicate 4 Step.popNested
    let stack := empty.run steps
    (∃ frame, .push frame ∈ steps) ∧
      (empty.run (steps ++ surplus)).isEmpty = false ∧
      (empty.run (steps ++ surplus)).frameAt? 0 = some outer ∧
      stack.size = 3 ∧ Remains steps 3 middle ∧ ¬ Remains steps 4 inner ∧
      stack.frameAt? 1 = some middle ∧
      (∃ position frame, Remains steps position frame ∧
        Fields.get? frame "vm" = some (.str "middle") ∧
        ∀ later other, position < later → Remains steps later other →
          Fields.get? other "vm" = none) ∧
      (∀ position frame, Remains steps position frame → Fields.get? frame "group" = none) ∧
      stack.isEmpty = false ∧ WellNested [.push outer, .popNested] ∧
      (stack.run [.push inner, .push outer, .popNested, .popNested]).find? = stack.find? := by
  intro outer middle inner last steps surplus stack
  obtain ⟨hkept, hsize, hframe, hfound, hnone, hrestored⟩ := frames_follow_steps steps
  have hpush : ∃ frame, .push frame ∈ steps := ⟨outer, by decide⟩
  have hmiddle : Remains steps 3 middle := by decide
  have hne : stack.isEmpty = false := by decide
  have hnested : WellNested [.push outer, .popNested] := .nest outer .nil .nil
  exact ⟨hpush, (hkept hpush surplus).1, (hkept hpush surplus).2.trans (by decide),
    hsize.trans (by decide), hmiddle, by decide, (hframe 1 middle).mpr ⟨3, hmiddle, by decide⟩,
    (hfound "vm" _).mp (by decide), (hnone "group").mp (by decide), hne, hnested,
    hrestored stack hne inner _ hnested⟩

end HeatPlacement.Heat.ResourceStack
