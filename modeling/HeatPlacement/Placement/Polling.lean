import HeatPlacement.Config.Basic
import HeatPlacement.Placement.Operation
import HeatPlacement.Placement.Submission
import HeatPlacement.Store.Basic

/-!
# Submitting requests and waiting for results

A request row is written, and the result row with the same key is asked for again and again until
it is there or the wait is over. A result row is removed before it is handed on.

* `Polling.Phase`: where a submission stands, and the call that is due
* `Polling.run`: the calls of a submission with their times, and its outcome
* `submitAndPoll`: a whole submission, as long as the clock and the counter of the questions last
* `submitAndPollOn`, `pollForResultOn`: a whole submission, and the wait alone, on a clock that ends
  and with a counter of 32 bits
-/

namespace HeatPlacement

/-- What came of a run against a store: its result, the calls in their order with the milliseconds
since the run began, and the state of the store behind it. -/
structure Run (σ α : Type) where
  result : α
  calls : List (Nat × StoreCall)
  state : σ

namespace Run

variable {σ α β : Type}

/-- A run without calls. -/
def still (result : α) (state : σ) : Run σ α := ⟨result, [], state⟩

/-- The run behind a first call at a time. -/
def after (run : Run σ α) (time : Nat) (call : StoreCall) : Run σ α :=
  { run with calls := (time, call) :: run.calls }

/-- Change the result. -/
def map (f : α → β) (run : Run σ α) : Run σ β := ⟨f run.result, run.calls, run.state⟩

end Run

namespace Polling

/-- How long to wait for a result, and how long between two questions. -/
structure Settings where
  waitUntil : Duration
  pollEvery : Duration
  deriving DecidableEq, Repr, Inhabited

/-- The settings of a configuration. -/
def Settings.ofConfig (config : PollingConfig) : Except Panic Settings := do
  return ⟨← config.waitUntil, ← config.pollEvery⟩

/-- How a submission ends. -/
inductive Outcome where
  /-- The result row is there. -/
  | delivered (row : Json)
  /-- No result row came in time. -/
  | timedOut
  deriving DecidableEq, Repr, Inhabited

/-- Where a submission stands. -/
inductive Phase where
  /-- The request is yet to be written. -/
  | submitting (document : Json)
  /-- The result is to be asked for. -/
  | asking
  /-- There was no result. -/
  | waiting
  /-- The result is known, and its row is to be removed. -/
  | clearing (row : Json)
  | finished (outcome : Outcome)
  deriving DecidableEq, Repr, Inhabited

/-- What a submission does next. -/
inductive Due where
  | call (call : StoreCall)
  /-- Sleep, or give up if it is too late. -/
  | pause
  | nothing (outcome : Outcome)
  deriving DecidableEq, Repr, Inhabited

namespace Phase

/-- What is due for the submission under a key. -/
def due (key : String) : Phase → Due
  | .submitting document => .call (.insert .requests document)
  | .asking => .call (.get .results key)
  | .waiting => .pause
  | .clearing _ => .call (.delete .results key removeDocument)
  | .finished outcome => .nothing outcome

/-- The phase after the store's answer. Neither a failed insertion nor a failed removal changes
the course, and a failed question is one without a result. -/
def answered : Phase → StoreAnswer → Phase
  | .submitting _, _ => .asking
  | .asking, .ok (some row) => .clearing row
  | .asking, _ => .waiting
  | .clearing row, _ => .finished (.delivered row)
  | phase, _ => phase

/-- The phase after a pause. -/
def woken (late : Bool) : Phase → Phase
  | .waiting => if late then .finished .timedOut else .asking
  | phase => phase

end Phase

/-- Enough steps for every question before the wait is over. -/
def Settings.steps (settings : Settings) : Nat := 2 * settings.waitUntil.millis + 5

/-- Go on from a phase at a time, for so many steps at most. Time passes in pauses only. -/
def run {σ : Type} (settings : Settings) (store : Store σ) (key : String) :
    (steps now : Nat) → Phase → σ → Run σ Outcome
  | 0, _, _, state => .still .timedOut state
  | steps + 1, now, phase, state =>
    match phase.due key with
    | .nothing outcome => .still outcome state
    | .pause =>
      -- There is a last question when the wait is over, but none after it.
      if settings.waitUntil.millis ≤ now then
        run settings store key steps now (phase.woken true) state
      else
        run settings store key steps (now + settings.pollEvery.millis) (phase.woken false) state
    | .call call =>
      let (answer, next) := store call state
      (run settings store key steps now (phase.answered answer) next).after now call

end Polling

/-- Submit a request, with the milliseconds since the epoch, and wait for its result row. -/
def submitAndPoll {σ : Type} (settings : Polling.Settings) (store : Store σ)
    (operation : Operation) (requestId : String) (timestamp : Nat) (request : Json) (state : σ) :
    Run σ Polling.Outcome :=
  let key := operation.requestKey requestId
  Polling.run settings store key settings.steps 0
    (.submitting (insertDocument key timestamp request)) state

/-! ### Clocks and counters that end -/

namespace Polling

/-- A clock, by what it shows when a wait begins, in nanoseconds. Its seconds have 63 bits. -/
structure Clock where
  reading : Nat
  deriving DecidableEq, Repr, Inhabited

/-- Whether the clock gets as far as to the end of a wait. -/
def Clock.reaches (clock : Clock) (wait : Duration) : Bool :=
  (clock.reading + 1000000 * wait.millis) / 1000000000 < Nat.pow 2 63

/-- The most questions that can be counted. -/
def countLimit : Nat := Nat.pow 2 32 - 1

/-- Ask for the result row under a key from a time on. Each question is counted first, and so many
more can be. -/
def ask {σ : Type} (settings : Settings) (store : Store σ) (key : String) :
    (countable now : Nat) → σ → Run σ (Except Panic Outcome)
  | 0, _, state => .still (.error .sum) state
  | countable + 1, now, state =>
    let question := StoreCall.get .results key
    let (answer, asked) := store question state
    match answer with
    | .ok (some row) =>
      let removal := StoreCall.delete .results key removeDocument
      let (_, removed) := store removal asked
      ((Run.still (.ok (.delivered row)) removed).after now removal).after now question
    -- A question that fails is one without a row.
    | .ok none | .error _ =>
      if settings.waitUntil.millis ≤ now then (Run.still (.ok .timedOut) asked).after now question
      else
        (ask settings store key countable (now + settings.pollEvery.millis) asked).after now
          question

end Polling

/-- Wait for the result row under a key, on a clock. The end of the wait is a time of the clock. -/
def pollForResultOn {σ : Type} (clock : Polling.Clock) (settings : Polling.Settings)
    (store : Store σ) (key : String) (state : σ) : Run σ (Except Panic Polling.Outcome) :=
  if clock.reaches settings.waitUntil then
    Polling.ask settings store key Polling.countLimit 0 state
  else .still (.error .instant) state

/-- Submit a request and wait for its result row, on a clock. -/
def submitAndPollOn {σ : Type} (clock : Polling.Clock) (settings : Polling.Settings)
    (store : Store σ) (operation : Operation) (requestId : String) (timestamp : Nat)
    (request : Json) (state : σ) : Run σ (Except Panic Polling.Outcome) :=
  let key := operation.requestKey requestId
  let insertion := StoreCall.insert .requests (insertDocument key timestamp request)
  let (_, submitted) := store insertion state
  (pollForResultOn clock settings store key submitted).after 0 insertion

end HeatPlacement
