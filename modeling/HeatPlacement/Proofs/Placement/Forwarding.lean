import HeatPlacement.Proofs.Placement.Ending
import HeatPlacement.Proofs.Polling.Protocol

/-!
# Requests that are forwarded

All requests but creations and updates go to the engine without a look at them. Each is submitted
once, with the text of its body, and comes to an end whatever the store does. A deletion is
submitted with as much of its body as tells the stack.

* `Polling.run_delivered`: **the row that is delivered** is the first one that is found
* `Forwarding`: a request that is forwarded, with its `operation`, its `request` and its `run`
* `Forwarding.Carries`, `Forwarding.Answers`: what is submitted, and what is handed back
* `Forwarding.submitted_once_as_sent`: **every such request** is submitted once and answered
-/

namespace HeatPlacement

/-! ### Rows that are delivered -/

namespace Polling

variable {σ : Type} {settings : Settings} {store : Store σ} {key : String} {state : σ} {row : Json}

/-- The first row that questions find from a state on. -/
def FirstRow (store : Store σ) (key : String) (state : σ) (row : Json) : Prop :=
  ∃ n, rowAt store key state n = some row ∧ ∀ i < n, rowAt store key state i = none

theorem firstRow_of_found (h : foundRow (store (.get .results key) state).1 = some row) :
    FirstRow store key state row :=
  ⟨0, h, nofun⟩

/-- A question without a row leaves it to the next ones. -/
theorem FirstRow.of_next (hnone : foundRow (store (.get .results key) state).1 = none)
    (h : FirstRow store key (store (.get .results key) state).2 row) :
    FirstRow store key state row := by
  obtain ⟨n, hrow, hearlier⟩ := h
  refine ⟨n + 1, hrow, fun i hi => ?_⟩
  cases i with
  | zero => exact hnone
  | succ i => exact hearlier i (Nat.lt_of_succ_lt_succ hi)

/-- What a phase delivers, if it comes to that. -/
def Phase.Delivers (store : Store σ) (key : String) (state : σ) (row : Json) : Phase → Prop
  | .submitting document => FirstRow store key (store (.insert .requests document) state).2 row
  | .asking | .waiting => FirstRow store key state row
  | .clearing found => found = row
  | .finished outcome => outcome = .delivered row

/-- **The row that is delivered** is the first one that is found. -/
theorem run_delivered {steps now : Nat} {phase : Phase}
    (h : (run settings store key steps now phase state).result = .delivered row) :
    phase.Delivers store key state row := by
  induction steps generalizing now phase state with
  | zero => cases h
  | succ steps ih =>
    cases phase with
    | submitting document => exact (ih h : Phase.asking.Delivers store key _ row)
    | asking =>
      cases hrow : foundRow (store (.get .results key) state).1 with
      | some found =>
        have hphase := answered_asking_of_some hrow
        have hrest : (Phase.asking.answered _).Delivers store key _ row := ih h
        rw [hphase] at hrest
        exact firstRow_of_found (hrest ▸ hrow)
      | none =>
        have hphase := answered_asking_of_none hrow
        have hrest : (Phase.asking.answered _).Delivers store key _ row := ih h
        rw [hphase] at hrest
        exact FirstRow.of_next hrow hrest
    | waiting =>
      have hstep : run settings store key (steps + 1) now .waiting state =
          if settings.waitUntil.millis ≤ now then
            run settings store key steps now (.finished .timedOut) state
          else run settings store key steps (now + settings.pollEvery.millis) .asking state := rfl
      rw [hstep] at h
      split at h
      · exact absurd (ih h) nofun
      · exact (ih h : Phase.asking.Delivers store key _ row)
    | clearing found =>
      have hrest : (Phase.finished (.delivered found)).Delivers store key _ row := ih h
      exact Outcome.delivered.inj hrest
    | finished outcome => exact h

end Polling

/-! ### Requests that are forwarded -/

/-- A request that goes to the engine without a look at it. -/
inductive Forwarding where
  | delete (body : Json)
  | confirm (body : Json)
  | rollback (body : Json)
  | groupQuery (name datacenterId : Option String)
  | groupCreate (body : Json)
  | groupUpdate (body : Json)
  | groupDelete (body : Json)

namespace Forwarding

/-- The operation that is asked for. -/
def operation : Forwarding → Operation
  | .delete _ => .delete
  | .confirm _ => .confirm
  | .rollback _ => .rollback
  | .groupQuery _ _ => .groupQuery
  | .groupCreate _ => .groupCreate
  | .groupUpdate _ => .groupUpdate
  | .groupDelete _ => .groupDelete

/-- What is submitted. -/
def request : Forwarding → Json
  | .delete body => deletionRequest body
  | .groupQuery name datacenterId => groupFilter name datacenterId
  | .confirm body | .rollback body | .groupCreate body | .groupUpdate body
  | .groupDelete body => body

/-- What becomes of a row that is found. -/
def respond : Forwarding → Json → Response
  | .delete _ | .confirm _ | .rollback _ => Response.ofStatus
  | .groupQuery _ _ | .groupCreate _ | .groupUpdate _ | .groupDelete _ => .json

section Run

variable {σ : Type}

/-- The run of a service that is asked for it. -/
def run (forwarding : Forwarding) (service : Service σ) (requestId : String) (timestamp : Nat)
    (state : σ) : Run σ (Except PlacementError PlacementOutcome) :=
  match forwarding with
  | .groupQuery name datacenterId =>
    (service.queryGroups name datacenterId requestId timestamp state).map .ok
  | .delete body | .confirm body | .rollback body | .groupCreate body | .groupUpdate body
  | .groupDelete body =>
    service.perform forwarding.operation body requestId timestamp state

/-- Nothing is looked at before a request is submitted. -/
theorem run_eq_submit (forwarding : Forwarding) (service : Service σ) (requestId : String)
    (timestamp : Nat) (state : σ) :
    forwarding.run service requestId timestamp state =
      (service.submit forwarding.respond forwarding.operation forwarding.request requestId
        timestamp state).map .ok := by
  cases forwarding <;> rfl

end Run

/-! ### What is submitted -/

/-- **What a deletion carries** of its body: the data centre, the name of the stack or else of the
module, and the tenant if there is one. -/
structure Reduces (body : Json) (members : Fields Json) : Prop where
  names : Fields.names members = ["datacenter", "stack_name"] ++
    if body.stated "tenant_id" = none then [] else ["tenant_id"]
  datacenter : Fields.get? members "datacenter" =
    some (.obj [("id", (body.stated "region_id").getD .null)])
  stackName : Fields.get? members "stack_name" =
    some (((body.stated "stack_name").or (body.stated "vf_module_name")).getD .null)
  tenantId : Fields.get? members "tenant_id" = body.stated "tenant_id"

/-- The names under which a deletion looks at its body. -/
def coordinates : List String := ["region_id", "stack_name", "vf_module_name", "tenant_id"]

/-- The members of the request to delete what a body tells. -/
def reduced (body : Json) : Fields Json :=
  [("datacenter", .obj [("id", (body.stated "region_id").getD .null)]),
      ("stack_name", ((body.stated "stack_name").or (body.stated "vf_module_name")).getD .null)] ++
    ((body.stated "tenant_id").map fun tenant => ("tenant_id", tenant)).toList

theorem deletionRequest_eq (body : Json) : deletionRequest body = .obj (reduced body) := by
  simp only [deletionRequest, Envelope.bind_sent, reduced, Json.stated, Option.orElse_eq_or]
  rfl

theorem reduces_reduced (body : Json) : Reduces body (reduced body) := by
  cases htenant : body.stated "tenant_id" <;>
    exact ⟨by simp [reduced, htenant], rfl, rfl, by simp [reduced, htenant, Fields.get?_cons]⟩

theorem reduced_congr {body other : Json}
    (h : ∀ name ∈ coordinates, other.stated name = body.stated name) :
    reduced other = reduced body := by
  simp only [coordinates, List.forall_mem_cons] at h
  obtain ⟨hregion, hstack, hmodule, htenant, -⟩ := h
  rw [reduced, reduced, hregion, hstack, hmodule, htenant]

/-- **What a request carries**: its body as it is, unless it is a deletion. -/
def Carries : Forwarding → Json → Prop
  | .delete body, request => ∃ members, request = .obj members ∧ Reduces body members
  | .groupQuery name datacenterId, request => request = groupFilter name datacenterId
  | .confirm body, request | .rollback body, request | .groupCreate body, request
  | .groupUpdate body, request | .groupDelete body, request => request = body

theorem carries_request (forwarding : Forwarding) : forwarding.Carries forwarding.request := by
  cases forwarding with
  | delete body => exact ⟨_, deletionRequest_eq body, reduces_reduced body⟩
  | _ => rfl

/-! ### What is handed back -/

/-- **What a column holds**: a value, or the text of one. A text that is not JSON stands for itself,
and a missing column for null. -/
inductive Holds : Option Json → Json → Prop where
  | missing : Holds none .null
  | encoded {content : String} {value : Json} :
    Json.read? content = some value → Holds (some (.str content)) value
  | plain {content : String} :
    Json.read? content = none → Holds (some (.str content)) (.str content)
  | value {value : Json} : value.asStr? = none → Holds (some value) value

theorem holds_decoded (column : Option Json) : Holds column (Response.decoded column) := by
  cases column with
  | none => exact .missing
  | some value =>
    cases value with
    | str content =>
      rw [Response.decoded]
      cases hread : Json.read? content with
      | none => exact .plain hread
      | some value => exact .encoded hread
    | _ => exact .value rfl

/-- **What is handed back** for a row: the row for groups, and its status for placements. -/
def Answers : Forwarding → Json → Response → Prop
  | .delete _, row, response | .confirm _, row, response | .rollback _, row, response =>
    ∃ status, Holds (row.member? "status") status ∧ response = .json (.obj [("status", status)])
  | .groupQuery _ _, row, response | .groupCreate _, row, response
  | .groupUpdate _, row, response | .groupDelete _, row, response => response = .json row

theorem answers_respond (forwarding : Forwarding) (row : Json) :
    forwarding.Answers row (forwarding.respond row) := by
  cases forwarding with
  | delete | confirm | rollback => exact ⟨_, holds_decoded _, rfl⟩
  | _ => rfl

/-! ### How a request ends -/

section Ending

variable {σ : Type} {forwarding : Forwarding} {service : Service σ} {requestId : String}
  {timestamp : Nat} {state : σ}

/-- A run is over time iff its submission is. -/
theorem result_run_eq_timedOut_iff :
    (forwarding.run service requestId timestamp state).result = .ok .timedOut ↔
      (submitAndPoll service.settings service.store forwarding.operation requestId timestamp
        forwarding.request state).result = .timedOut := by
  rw [run_eq_submit]
  unfold Service.submit Run.map
  cases (submitAndPoll service.settings service.store forwarding.operation requestId timestamp
    forwarding.request state).result <;> simp

/-- What a run delivers is made of the row that its submission delivers. -/
theorem result_run_of_delivered {row : Json}
    (h : (submitAndPoll service.settings service.store forwarding.operation requestId timestamp
      forwarding.request state).result = .delivered row) :
    (forwarding.run service requestId timestamp state).result =
      .ok (.delivered (forwarding.respond row)) := by
  rw [run_eq_submit]
  simp only [Service.submit, Run.map, h]

theorem calls_run : (forwarding.run service requestId timestamp state).calls =
    (submitAndPoll service.settings service.store forwarding.operation requestId timestamp
      forwarding.request state).calls := by
  rw [run_eq_submit]
  rfl

end Ending

open Polling

/-- **A forwarded request is submitted once, as it was sent.** Whatever the request, its identifier
and the store, there is one insertion, of the text of what the request carries, and the run is over
time or delivers the first row that is found. Where pauses take time, this is the end of its course.
Deletions whose bodies agree on what tells the stack have the same run. -/
theorem submitted_once_as_sent {σ : Type} (forwarding : Forwarding) (service : Service σ)
    (requestId : String) (timestamp : Nat) (state : σ) :
    let key := forwarding.operation.requestKey requestId
    let run := forwarding.run service requestId timestamp state
    ∃ request later, forwarding.Carries request ∧
      let document := insertDocument key timestamp request
      document.at? ["values", "request"] = some (.str request.text) ∧
      run.calls = (0, .insert .requests document) :: later ∧
      (∀ entry ∈ later, entry.2.name ≠ "insert") ∧
      (run.result = .ok .timedOut ∨
        ∃ row response,
          FirstRow service.store key (service.store (.insert .requests document) state).2 row ∧
          forwarding.Answers row response ∧ run.result = .ok (.delivered response)) ∧
      (0 < service.settings.pollEvery.millis → ∃ outcome time,
        Concludes service.settings service.store key ⟨0, .submitting document, state⟩ outcome
          run.calls time ∧ (run.result = .ok .timedOut ↔ outcome = .timedOut)) ∧
      ∀ body other, forwarding = .delete body →
        (∀ name ∈ coordinates, other.stated name = body.stated name) →
          (Forwarding.delete other).run service requestId timestamp state = run := by
  intro key run
  obtain ⟨later, hcalls, hlater⟩ := submitAndPoll_calls service.settings service.store
    forwarding.operation requestId timestamp forwarding.request state
  refine ⟨forwarding.request, later, carries_request forwarding, rfl, calls_run.trans hcalls,
    hlater, ?_, fun hpoll => ?_, ?_⟩
  · cases hresult : (submitAndPoll service.settings service.store forwarding.operation requestId
      timestamp forwarding.request state).result with
    | timedOut => exact .inl (result_run_eq_timedOut_iff.mpr hresult)
    | delivered row =>
      have hfirst : Phase.Delivers service.store key state row (.submitting _) :=
        run_delivered hresult
      exact .inr ⟨row, _, hfirst, answers_respond forwarding row, result_run_of_delivered hresult⟩
  · obtain ⟨time, hconcludes⟩ := exists_concludes hpoll service.store key
      (insertDocument key timestamp forwarding.request) state
    exact ⟨_, time, calls_run ▸ hconcludes, result_run_eq_timedOut_iff⟩
  · rintro body other rfl hagree
    have hrequest : (Forwarding.delete other).request = (Forwarding.delete body).request := by
      simp only [request, deletionRequest_eq, reduced_congr hagree]
    rw [run_eq_submit, hrequest]
    exact (run_eq_submit (.delete body) service requestId timestamp state).symm

end Forwarding

end HeatPlacement
