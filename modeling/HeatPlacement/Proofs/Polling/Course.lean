import HeatPlacement.Placement.Polling

/-!
# The course of a submission

A submission goes from moment to moment: it calls the store, which takes no time, or it pauses. The
function that runs a submission takes so many of these steps; a relation says what each of them is,
with the time at which it happens.

* `Polling.Moment`: where a submission and its store stand at a time
* `Polling.Leads`: from moment to moment in so many steps, with the calls on the way
* `Polling.Leads.trans`: one course after the other
* `Polling.Concludes`: the outcome, the calls on the way, and the time at which it is finished
* `Polling.run_eq_of_leads`: **a run is the course** to the moment where the submission is finished
* `Polling.run_calls_of_submitted`: behind the insertion, **only the result row is called for**
-/

namespace HeatPlacement.Polling

variable {σ : Type}

/-- Where a submission and its store stand at a time, in milliseconds since it began. -/
structure Moment (σ : Type) where
  now : Nat
  phase : Phase
  state : σ

/-- **The course of a submission** under a key, from one moment to another: the number of steps, and
the calls of the store with their times. -/
inductive Leads (settings : Settings) (store : Store σ) (key : String) :
    Nat → Moment σ → List (Nat × StoreCall) → Moment σ → Prop where
  | refl (here : Moment σ) : Leads settings store key 0 here [] here
  /-- The store is called and answers at once. -/
  | call {steps now : Nat} {phase : Phase} {state : σ} {call : StoreCall}
      {calls : List (Nat × StoreCall)} {last : Moment σ} :
    phase.due key = .call call →
      Leads settings store key steps
        ⟨now, phase.answered (store call state).1, (store call state).2⟩ calls last →
        Leads settings store key (steps + 1) ⟨now, phase, state⟩ ((now, call) :: calls) last
  /-- The wait is not over: a pause. -/
  | sleep {steps now : Nat} {phase : Phase} {state : σ} {calls : List (Nat × StoreCall)}
      {last : Moment σ} :
    phase.due key = .pause → now < settings.waitUntil.millis →
      Leads settings store key steps
        ⟨now + settings.pollEvery.millis, phase.woken false, state⟩ calls last →
        Leads settings store key (steps + 1) ⟨now, phase, state⟩ calls last
  /-- The wait is over. -/
  | late {steps now : Nat} {phase : Phase} {state : σ} {calls : List (Nat × StoreCall)}
      {last : Moment σ} :
    phase.due key = .pause → settings.waitUntil.millis ≤ now →
      Leads settings store key steps ⟨now, phase.woken true, state⟩ calls last →
        Leads settings store key (steps + 1) ⟨now, phase, state⟩ calls last

namespace Leads

variable {settings : Settings} {store : Store σ} {key : String} {steps steps' : Nat}
  {here there last : Moment σ} {calls calls' : List (Nat × StoreCall)}

/-- One course after the other. -/
theorem trans (h : Leads settings store key steps here calls there)
    (h' : Leads settings store key steps' there calls' last) :
    Leads settings store key (steps + steps') here (calls ++ calls') last := by
  induction h with
  | refl here => simpa using h'
  | call hdue _ ih => simpa [Nat.add_right_comm] using Leads.call hdue (ih h')
  | sleep hdue hearly _ ih => simpa [Nat.add_right_comm] using Leads.sleep hdue hearly (ih h')
  | late hdue hlate _ ih => simpa [Nat.add_right_comm] using Leads.late hdue hlate (ih h')

end Leads

/-- **How a submission ends**: with an outcome, after some calls, at a time. -/
def Concludes (settings : Settings) (store : Store σ) (key : String) (here : Moment σ)
    (outcome : Outcome) (calls : List (Nat × StoreCall)) (time : Nat) : Prop :=
  ∃ steps last, Leads settings store key steps here calls ⟨time, .finished outcome, last⟩

/-- **A run is the course** to the moment where the submission is finished, if it has one step more
than this takes. -/
theorem run_eq_of_leads {settings : Settings} {store : Store σ} {key : String} {steps : Nat}
    {here last : Moment σ} {calls : List (Nat × StoreCall)} {outcome : Outcome}
    (h : Leads settings store key steps here calls last) (hlast : last.phase = .finished outcome)
    {room : Nat} (hroom : steps < room) :
    run settings store key room here.now here.phase here.state = ⟨outcome, calls, last.state⟩ := by
  induction h generalizing room with
  | refl here =>
    obtain ⟨room, rfl⟩ : ∃ n, room = n + 1 := ⟨room - 1, by omega⟩
    rw [run, hlast]
    rfl
  | @call steps now phase state call calls last hdue _ ih =>
    -- A step of the course is one of the run, and leaves it one step less.
    obtain ⟨room, rfl⟩ : ∃ n, room = n + 1 := ⟨room - 1, by omega⟩
    have hrest := ih hlast (Nat.lt_of_succ_lt_succ hroom)
    rw [run, hdue]
    show (run settings store key room now _ _).after now call = _
    rw [hrest]
    rfl
  | @sleep steps now phase state calls last hdue hearly _ ih =>
    obtain ⟨room, rfl⟩ : ∃ n, room = n + 1 := ⟨room - 1, by omega⟩
    rw [run, hdue]
    exact (if_neg (Nat.not_le.mpr hearly)).trans (ih hlast (Nat.lt_of_succ_lt_succ hroom))
  | @late steps now phase state calls last hdue hlate _ ih =>
    obtain ⟨room, rfl⟩ : ∃ n, room = n + 1 := ⟨room - 1, by omega⟩
    rw [run, hdue]
    exact (if_pos hlate).trans (ih hlast (Nat.lt_of_succ_lt_succ hroom))

/-! ### Behind the insertion -/

/-- Whether the request was written before a phase. -/
def Phase.Submitted : Phase → Prop
  | .submitting _ => False
  | _ => True

theorem Phase.submitted_answered (phase : Phase) (answer : StoreAnswer) :
    (phase.answered answer).Submitted := by
  cases phase with
  | asking => rcases answer with _ | _ | _ <;> trivial
  | _ => trivial

theorem Phase.Submitted.woken {phase : Phase} (h : phase.Submitted) (late : Bool) :
    (phase.woken late).Submitted := by
  cases phase with
  | submitting => exact h
  | waiting => cases late <;> trivial
  | _ => trivial

theorem Phase.Submitted.due {phase : Phase} (h : phase.Submitted) {key : String} {call : StoreCall}
    (hdue : phase.due key = .call call) :
    call = .get .results key ∨ call = .delete .results key removeDocument := by
  cases phase <;> cases hdue
  · exact h.elim
  · exact .inl rfl
  · exact .inr rfl

/-- Behind the insertion, **only the result row is called for**. -/
theorem run_calls_of_submitted {settings : Settings} {store : Store σ} {key : String}
    {steps now : Nat} {phase : Phase} {state : σ} (h : phase.Submitted) :
    ∀ entry ∈ (run settings store key steps now phase state).calls,
      entry.2 = .get .results key ∨ entry.2 = .delete .results key removeDocument := by
  induction steps generalizing now phase state with
  | zero => simp [run, Run.still]
  | succ steps ih =>
    rw [run]
    cases hdue : phase.due key with
    | nothing outcome => simp [Run.still]
    | pause =>
      dsimp only
      split
      · exact ih (h.woken true)
      · exact ih (h.woken false)
    | call call =>
      intro entry hentry
      rcases List.mem_cons.mp hentry with rfl | hentry
      · exact h.due hdue
      · exact ih (phase.submitted_answered _) entry hentry

end HeatPlacement.Polling
