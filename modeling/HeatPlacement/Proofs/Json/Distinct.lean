import HeatPlacement.Json.Reader
import HeatPlacement.Proofs.Json.Parts

/-!
# Names that are bound once

An object holds a name once. The reader keeps this: where a text gives a name twice, the second
value replaces the first.

* `Json.Distinct`: the values in question, with `Json.distinct_arr_iff` and `Json.distinct_obj_iff`
* `Json.Reader.State.Distinct`: a reading in which all that is complete is such a value
* `Json.Reader.step_distinct`, `Json.Reader.run_distinct`: one character, and any number of them
* `Json.read?_distinct`: **what is read binds every name once**
-/

namespace HeatPlacement.Json

/-! ### Values -/

/-- No object within the value binds a name twice. -/
def Distinct (value : Json) : Prop :=
  value.Everywhere fun part => ∀ fields, part = .obj fields → (Fields.names fields).Nodup

@[simp] theorem distinct_null : null.Distinct := by simp [Distinct]

@[simp] theorem distinct_bool (b : Bool) : (bool b).Distinct := by simp [Distinct]

@[simp] theorem distinct_num (n : Number) : (num n).Distinct := by simp [Distinct]

@[simp] theorem distinct_str (s : String) : (str s).Distinct := by simp [Distinct]

theorem distinct_arr_iff {items : List Json} :
    (arr items).Distinct ↔ ∀ item ∈ items, item.Distinct := by
  simp [Distinct]

theorem distinct_obj_iff {fields : Fields Json} :
    (obj fields).Distinct ↔
      (Fields.names fields).Nodup ∧ ∀ entry ∈ fields, entry.2.Distinct := by
  simp [Distinct]

namespace Distinct

theorem nodup_names {fields : Fields Json} (h : (obj fields).Distinct) :
    (Fields.names fields).Nodup :=
  (distinct_obj_iff.mp h).1

/-- The value under a name. -/
theorem member? {value part : Json} {name : String} (h : value.Distinct)
    (hpart : value.member? name = some part) : part.Distinct := by
  cases value with
  | obj fields => exact Everywhere.get? h hpart
  | _ => cases hpart

/-- A member that is set. -/
theorem insert {fields : Fields Json} {value : Json} (h : (obj fields).Distinct)
    (hvalue : value.Distinct) (name : String) :
    (obj (Fields.insert fields name value)).Distinct := by
  refine Everywhere.insert h hvalue ?_
  rintro _ ⟨⟩
  exact Fields.nodup_names_insert h.nodup_names name value

end Distinct

namespace Reader

/-! ### Readings -/

/-- What an open bracket holds so far. -/
def Frame.Distinct : Frame → Prop
  | .items done => (arr done).Distinct
  | .members done _ => (obj done).Distinct

/-- What a phase has ready. -/
def Phase.Distinct : Phase → Prop
  | .word _ _ whole | .done whole => whole.Distinct
  | _ => True

/-- All that a reading has complete binds every name once. -/
structure State.Distinct (state : State) : Prop where
  frames : ∀ frame ∈ state.frames, frame.Distinct
  phase : state.phase.Distinct

variable {limit : Nat} {frames : List Frame} {state next : State} {value : Json} {c : Char}

/-- A complete value goes into the innermost bracket. -/
theorem deliver_distinct (h : ∀ frame ∈ frames, frame.Distinct) (hvalue : value.Distinct) :
    (deliver frames value).Distinct := by
  rcases frames with _ | ⟨frame, outer⟩
  · exact ⟨h, hvalue⟩
  · obtain ⟨hframe, houter⟩ := List.forall_mem_cons.mp h
    cases frame with
    | items done =>
      have hdone : (arr (value :: done)).Distinct :=
        distinct_arr_iff.mpr (List.forall_mem_cons.mpr ⟨hvalue, distinct_arr_iff.mp hframe⟩)
      exact ⟨List.forall_mem_cons.mpr ⟨hdone, houter⟩, trivial⟩
    | members done name =>
      have hdone : (obj (Fields.insert done name value)).Distinct := hframe.insert hvalue name
      exact ⟨List.forall_mem_cons.mpr ⟨hdone, houter⟩, trivial⟩

/-- An array that is closed. -/
theorem deliver_arr_distinct {done : List Json} {outer : List Frame}
    (h : ∀ frame ∈ Frame.items done :: outer, frame.Distinct) :
    (deliver outer (.arr done.reverse)).Distinct := by
  obtain ⟨hdone, houter⟩ := List.forall_mem_cons.mp h
  refine deliver_distinct houter (distinct_arr_iff.mpr fun item hitem => ?_)
  exact distinct_arr_iff.mp hdone item (List.mem_reverse.mp hitem)

/-- An object that is closed. -/
theorem deliver_obj_distinct {done : Fields Json} {name : String} {outer : List Frame}
    (h : ∀ frame ∈ Frame.members done name :: outer, frame.Distinct) :
    (deliver outer (.obj done)).Distinct :=
  deliver_distinct (List.forall_mem_cons.mp h).2 (List.forall_mem_cons.mp h).1

/-- Another name for the value to come changes nothing that is complete. -/
theorem members_distinct {done : Fields Json} {name : String} {outer : List Frame}
    (h : ∀ frame ∈ Frame.members done name :: outer, frame.Distinct) (other : String) :
    ∀ frame ∈ Frame.members done other :: outer, frame.Distinct :=
  List.forall_mem_cons.mpr ⟨(List.forall_mem_cons.mp h).1, (List.forall_mem_cons.mp h).2⟩

theorem openFrame_distinct {frame : Frame} {phase : Phase}
    (hnext : openFrame limit frames frame phase = some next)
    (h : ∀ frame ∈ frames, frame.Distinct) (hframe : frame.Distinct) (hphase : phase.Distinct) :
    next.Distinct := by
  rw [openFrame] at hnext
  split at hnext
  · cases hnext
    exact ⟨List.forall_mem_cons.mpr ⟨hframe, h⟩, hphase⟩
  · cases hnext

/-- The first character of a value opens an empty bracket or leaves the brackets as they are. -/
theorem begin_distinct (h : ∀ frame ∈ frames, frame.Distinct)
    (hnext : begin limit frames c = some next) : next.Distinct := by
  have hmembers : (Frame.members [] "").Distinct := distinct_obj_iff.mpr ⟨List.nodup_nil, by simp⟩
  have hitems : (Frame.items []).Distinct := distinct_arr_iff.mpr (by simp)
  unfold begin at hnext
  split at hnext
  · exact openFrame_distinct hnext h hmembers trivial
  · exact openFrame_distinct hnext h hitems trivial
  · cases hnext; exact ⟨h, trivial⟩
  · cases hnext; exact ⟨h, distinct_null⟩
  · cases hnext; exact ⟨h, distinct_bool true⟩
  · cases hnext; exact ⟨h, distinct_bool false⟩
  · cases hnext; exact ⟨h, trivial⟩
  · cases hnext; exact ⟨h, trivial⟩
  · split at hnext
    · cases hnext; exact ⟨h, trivial⟩
    · cases hnext

/-- After a value: a comma leaves what is complete, a closing bracket delivers it. -/
theorem follow_distinct (h : ∀ frame ∈ frames, frame.Distinct)
    (hnext : follow frames c = some next) : next.Distinct := by
  unfold follow at hnext
  split at hnext
  · cases hnext; exact ⟨h, trivial⟩
  · split at hnext
    · cases hnext; exact ⟨h, trivial⟩
    · cases hnext; exact deliver_arr_distinct h
    · cases hnext; exact ⟨members_distinct h "", trivial⟩
    · cases hnext; exact deliver_obj_distinct h
    · cases hnext

theorem afterValue_distinct (h : state.Distinct) (hnext : afterValue state c = some next) :
    next.Distinct := by
  unfold afterValue at hnext
  split at hnext
  · split at hnext
    · cases hnext; exact h
    · cases hnext
  · exact follow_distinct h.frames hnext

/-- **One character.** -/
theorem step_distinct (h : state.Distinct) (hnext : step limit state c = some next) :
    next.Distinct := by
  obtain ⟨frames, phase⟩ := state
  obtain ⟨hframes, hphase⟩ := h
  cases phase with
  | value first =>
    simp only [step] at hnext
    split at hnext
    · cases hnext; exact ⟨hframes, hphase⟩
    · split at hnext
      · cases hnext; exact deliver_arr_distinct hframes
      · exact begin_distinct hframes hnext
  | name first =>
    simp only [step] at hnext
    split at hnext
    · cases hnext; exact ⟨hframes, hphase⟩
    · split at hnext
      · cases hnext; exact deliver_obj_distinct hframes
      · cases hnext; exact ⟨hframes, trivial⟩
      · cases hnext
  | colon name =>
    simp only [step] at hnext
    split at hnext
    · cases hnext; exact ⟨hframes, hphase⟩
    · split at hnext
      · cases hnext; exact ⟨members_distinct hframes name, trivial⟩
      · cases hnext
  | after => exact follow_distinct hframes hnext
  | word letter left value =>
    simp only [step] at hnext
    split at hnext
    · cases hnext
    · split at hnext
      · cases hnext; exact deliver_distinct hframes hphase
      · cases hnext; exact ⟨hframes, hphase⟩
  | number part numeral =>
    simp only [step] at hnext
    split at hnext
    · cases hnext; exact ⟨hframes, trivial⟩
    · split at hnext
      · obtain ⟨n, -, hafter⟩ := Option.bind_eq_some_iff.mp hnext
        exact afterValue_distinct (deliver_distinct hframes (distinct_num n)) hafter
      · cases hnext
  | string isName mark done =>
    -- Inside a string nothing is complete; its closing quote delivers it, unless it is a name.
    have hgrow {grown : Option (Mark × List Char)}
        (hgrown : (grown.map fun pair => State.mk frames (.string isName pair.1 pair.2)) =
          some next) : next.Distinct := by
      obtain ⟨_, -, rfl⟩ := Option.map_eq_some_iff.mp hgrown
      exact ⟨hframes, trivial⟩
    cases mark with
    | plain =>
      simp only [step] at hnext
      split at hnext
      · cases isName
        · cases hnext; exact deliver_distinct hframes (distinct_str _)
        · cases hnext; exact ⟨hframes, trivial⟩
      · exact hgrow hnext
    | _ => exact hgrow hnext
  | done value =>
    simp only [step] at hnext
    split at hnext
    · cases hnext; exact ⟨hframes, hphase⟩
    · cases hnext

/-- **Any number of characters.** -/
theorem run_distinct {text : List Char} (h : state.Distinct)
    (hnext : run limit state text = some next) : next.Distinct := by
  induction text generalizing state with
  | nil => cases hnext; exact h
  | cons c rest ih =>
    rw [run_cons] at hnext
    obtain ⟨between, hstep, hrest⟩ := Option.bind_eq_some_iff.mp hnext
    exact ih (step_distinct h hstep) hrest

theorem start_distinct : start.Distinct := ⟨by simp [start], trivial⟩

theorem result?_distinct (h : state.Distinct) (hvalue : result? state = some value) :
    value.Distinct := by
  obtain ⟨frames, phase⟩ := state
  unfold result? at hvalue
  split at hvalue
  · rename_i hphase
    cases hvalue
    have hdone : phase.Distinct := h.phase
    rwa [show phase = .done _ from hphase] at hdone
  · split at hvalue
    · obtain ⟨n, -, rfl⟩ := Option.map_eq_some_iff.mp hvalue
      exact distinct_num n
    · cases hvalue
  · cases hvalue

end Reader

/-- **What is read binds every name once**, at any depth. -/
theorem read?_distinct {text : String} {value : Json} (h : read? text = some value) :
    value.Distinct := by
  obtain ⟨state, hrun, hresult⟩ := Option.bind_eq_some_iff.mp h
  exact Reader.result?_distinct (Reader.run_distinct Reader.start_distinct hrun) hresult

end HeatPlacement.Json
