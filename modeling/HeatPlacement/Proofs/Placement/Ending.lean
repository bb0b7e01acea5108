import HeatPlacement.Api.Answer
import HeatPlacement.Proofs.Placement.Received
import HeatPlacement.Proofs.Polling.Course
import HeatPlacement.Store.Local

/-!
# How creations and updates end

A body is decoded, checked and resolved before the store is called for the first time. What comes of
it is one of three things, and only the last one reaches the store.

* `submitAndPoll_calls`: a submission inserts its request, and never again
* `prepare_of_undecoded`, `prepare_of_incomplete`, `prepare_of_complete`: what comes of a body
* `requiredFields`, `Silent`: the identifiers that a body has to say, and where it does not
* `Carries`: what a request says, and `carries_of_complete`: the submitted one says it
* `Api.Ending`: the three endings, and when there is which
* `Api.placement_all_or_nothing`: every creation and every update has exactly one of them
-/

namespace HeatPlacement

/-- The value at the end of a path of member names. -/
def Json.at? (value : Json) (path : List String) : Option Json := path.foldlM Json.member? value

/-! ### The calls of a submission -/

/-- A submission inserts its request, and never again. -/
theorem submitAndPoll_calls {σ : Type} (settings : Polling.Settings) (store : Store σ)
    (operation : Operation) (requestId : String) (timestamp : Nat) (request : Json) (state : σ) :
    ∃ later, (submitAndPoll settings store operation requestId timestamp request state).calls =
        (0, .insert .requests
          (insertDocument (operation.requestKey requestId) timestamp request)) :: later ∧
      ∀ entry ∈ later, entry.2.name ≠ "insert" := by
  refine ⟨_, rfl, fun entry hentry => ?_⟩
  rcases Polling.run_calls_of_submitted (Polling.Phase.submitted_answered _ _) entry hentry
    with h | h
  · rw [h]
    exact (by decide : "get" ≠ "insert")
  · rw [h]
    exact (by decide : "delete" ≠ "insert")

/-! ### What comes of a body -/

section Prepare

variable {body : Json} {envelope : Envelope} {heat : HeatRequest} {resources : Fields Json}

theorem prepare_of_undecoded {cause : DecodeError} (h : Envelope.decode body = .error cause) :
    prepare body = .error (.malformed cause) := by
  rw [prepare, h]

/-- An incomplete envelope is told as such, whatever its stack request is. -/
theorem prepare_of_incomplete (h : Envelope.decode body = .ok envelope)
    (hblank : Envelope.blankNames body ≠ []) :
    prepare body = .ok (.incomplete (Envelope.blankNames body)) := by
  rw [prepare, h, ← Envelope.missing_of_decode h]
  rw [← Envelope.missing_of_decode h] at hblank
  exact if_neg fun hempty => hblank (List.isEmpty_iff.mp hempty)

/-- A complete envelope is as good as its stack request. -/
theorem prepare_of_complete (h : Envelope.decode body = .ok envelope)
    (hblank : Envelope.blankNames body = []) :
    prepare body =
      match envelope.heat with
      | none => .error .noHeatRequest
      | some heat =>
        match heat.resolve with
        | .error cause => .error (.template cause)
        | .ok resources =>
          .ok (.ready (PlacementRequest.ofEnvelope envelope resources).toJson heat.parameters) := by
  rw [← Envelope.missing_of_decode h] at hblank
  rw [prepare, h]
  exact if_pos (List.isEmpty_iff.mpr hblank)

end Prepare

/-! ### What a body has to say -/

/-- The identifiers that a body has to say, in the order in which they are told. -/
def requiredFields : List String :=
  ["region_id", "keystone_url", "tenant_id", "service_instance_id", "vnf_id", "vnf_name",
    "vf_module_id", "vf_module_name"]

/-- What a body says about a field: an object by its members, and a list by its items. -/
def said (body : Json) (name : String) : Option Json :=
  Decode.received (requiredFields ++ ["stack_name", "heat_request"]) body name

/-- **A body says nothing about a field**: it leaves it out, or has null or the empty text there. -/
def Silent (body : Json) (name : String) : Prop :=
  said body name = none ∨ said body name = some .null ∨ said body name = some (.str "")

/-- **What a body leaves unsaid**, in the order of the required fields. -/
def Unsaid (body : Json) (names : List String) : Prop :=
  names.Sublist requiredFields ∧
    ∀ name ∈ requiredFields, name ∈ names ↔ Silent body name

theorem silent_iff {body : Json} {name : String} :
    Silent body name ↔ Envelope.isBlank (Envelope.received body name) = true := by
  show Envelope.received body name = none ∨ Envelope.received body name = some .null ∨
    Envelope.received body name = some (.str "") ↔ _
  cases Envelope.received body name with
  | none => simp [Envelope.isBlank]
  | some value => cases value <;> simp [Envelope.isBlank]

theorem unsaid_blankNames (body : Json) : Unsaid body (Envelope.blankNames body) := by
  refine ⟨List.filter_sublist, fun name hname => ?_⟩
  rw [silent_iff, Envelope.blankNames, List.mem_filter]
  exact and_iff_right hname

/-- A body that leaves nothing unsaid is complete. -/
theorem unsaid_nil_iff {body : Json} : Unsaid body [] ↔ Envelope.blankNames body = [] := by
  rw [Envelope.blankNames, List.filter_eq_nil_iff]
  simp only [Unsaid, silent_iff, List.nil_sublist, true_and, List.not_mem_nil, false_iff]
  rfl

/-! ### What a request says -/

/-- Where a request has the identifiers of an envelope. -/
def Envelope.pathOf : String → List String
  | "region_id" => ["datacenter", "id"]
  | "keystone_url" => ["datacenter", "url"]
  | "vnf_id" => ["vnf_instance_id"]
  | "vnf_name" => ["vnf_instance_name"]
  | name => [name]

/-- What is submitted for a body: its identifiers as they were received, all the resources of its
stack request, and the name of the stack. -/
structure Carries (body : Json) (heat : HeatRequest) (resources : Fields Json) (request : Json) :
    Prop where
  identifiers : ∀ name ∈ requiredFields,
    request.at? (Envelope.pathOf name) = said body name
  resources : request.at? ["stack", "resources"] = some (.obj resources)
  stackName : request.at? ["stack_name"] = some ((heat.stackName.map Json.str).getD .null)

section Carries

variable {body : Json} {envelope : Envelope} {heat : HeatRequest} {resources : Fields Json}

theorem at?_pathOf_toJson {name : String} (hname : name ∈ Envelope.requiredNames) :
    (PlacementRequest.ofEnvelope envelope resources).toJson.at? (Envelope.pathOf name) =
      some ((envelope.field name).getD .null) := by
  simp only [Envelope.requiredNames, List.mem_cons, List.not_mem_nil, or_false] at hname
  rcases hname with rfl | rfl | rfl | rfl | rfl | rfl | rfl | rfl <;> rfl

/-- The request for a complete envelope carries it. -/
theorem carries_of_complete (h : Envelope.decode body = .ok envelope)
    (hblank : Envelope.blankNames body = []) (hheat : envelope.heat = some heat) :
    Carries body heat resources (PlacementRequest.ofEnvelope envelope resources).toJson where
  identifiers name hname := by
    obtain ⟨value, hreceived, hfield⟩ := Envelope.exists_received_of_complete h hblank hname
    rw [at?_pathOf_toJson hname, hfield]
    exact hreceived.symm
  resources := rfl
  stackName := by
    have hname : (PlacementRequest.ofEnvelope envelope resources).stackName = heat.stackName :=
      congrArg (Option.bind · HeatRequest.stackName) hheat
    rw [← hname]
    rfl

end Carries

namespace Api

/-! ### Endings -/

/-- How a creation or an update ends. -/
inductive Ending where
  /-- Identifiers are missing. -/
  | refused
  /-- The body is no envelope, or its stack request is missing or does not resolve. -/
  | failed
  /-- The whole request was resolved and is submitted. -/
  | submitted
  deriving DecidableEq, Repr, Inhabited

variable {σ : Type}

/-- The statuses that tell an ending. -/
def Ending.statuses : Ending → List Nat
  | .refused => [422]
  | .failed => [500]
  | .submitted => [200, 504]

/-- **When there is an ending, and what there is to it**, for an operation on a body under an
identifier. Without a submission there is no call; a submission inserts its request once. -/
def Ending.Describes (operation : Operation) (requestId : String) (timestamp : Nat) (body : Json)
    (state : σ) (run : Run σ Answer) : Ending → Prop
  | .refused =>
    ∃ envelope names, Envelope.decode body = .ok envelope ∧ Unsaid body names ∧ names ≠ [] ∧
      run = ⟨⟨422, some "text/plain; charset=utf-8",
        "RequiredFields : [" ++ ", ".intercalate names ++ "]", none⟩, [], state⟩
  | .failed =>
    ((∃ cause, Envelope.decode body = .error cause) ∨
      ∃ envelope, Envelope.decode body = .ok envelope ∧ Unsaid body [] ∧
        (envelope.heat = none ∨
          ∃ heat cause, envelope.heat = some heat ∧ heat.resolve = .error cause)) ∧
      run = ⟨⟨500, none, "", none⟩, [], state⟩
  | .submitted =>
    ∃ envelope heat resources request later,
      Envelope.decode body = .ok envelope ∧ Unsaid body [] ∧
      envelope.heat = some heat ∧ heat.resolve = .ok resources ∧
      (run.result.status = 200 ∨ run.result = ⟨504, none, "", none⟩) ∧
      let key := operation.requestKey (Text.Entity.escape requestId)
      let document := insertDocument key timestamp request
      run.calls = (0, .insert .requests document) :: later ∧
      (∀ entry ∈ later, entry.2.name ≠ "insert") ∧
      Carries body heat resources request ∧
      ∃ text, document.at? ["values", "request"] = some (.str text) ∧
        (Json.read? request.text = some request →
          ∃ decoded, Json.read? text = some decoded ∧ Carries body heat resources decoded)

section Endings

variable {operation : Operation} {requestId : String} {timestamp : Nat} {body : Json} {state : σ}
  {run : Run σ Answer} {ending other : Ending}

theorem Ending.status_mem (h : ending.Describes operation requestId timestamp body state run) :
    run.result.status ∈ ending.statuses := by
  cases ending with
  | refused =>
    obtain ⟨-, names, -, -, -, rfl⟩ := h
    exact List.mem_singleton_self 422
  | failed =>
    obtain ⟨-, rfl⟩ := h
    exact List.mem_singleton_self 500
  | submitted =>
    obtain ⟨_, _, _, _, _, -, -, -, -, hstatus | hresult, -⟩ := h
    · rw [hstatus]
      exact List.mem_cons_self
    · rw [hresult]
      exact List.mem_cons_of_mem _ (List.mem_singleton_self 504)

/-- No status tells two endings. -/
theorem Ending.eq_of_mem_statuses {status : Nat} (h : status ∈ ending.statuses)
    (hother : status ∈ other.statuses) : ending = other := by
  cases ending <;> cases other <;> simp [statuses] at h hother ⊢ <;> omega

theorem Ending.eq_of_describes (h : ending.Describes operation requestId timestamp body state run)
    (hother : other.Describes operation requestId timestamp body state run) : ending = other :=
  eq_of_mem_statuses (status_mem h) (status_mem hother)

/-- What creations and updates have in common. -/
theorem carryOut_of_placement (hoperation : operation = .create ∨ operation = .update)
    (service : Service σ) (requestId : String) (timestamp : Nat) (body : Json) (state : σ) :
    carryOut service operation requestId timestamp body state =
      (service.place operation body (Text.Entity.escape requestId) timestamp state).map
        .ofPlacement := by
  rcases hoperation with rfl | rfl
  all_goals
    simp only [carryOut, Service.perform]
    obtain ⟨result, calls, last⟩ :=
      service.place _ body (Text.Entity.escape requestId) timestamp state
    cases result <;> rfl

/-- A failure is told by its status alone, and the store is left alone. -/
theorem carryOut_of_error (hoperation : operation = .create ∨ operation = .update)
    {service : Service σ} {cause : PlacementError} (hprepare : prepare body = .error cause) :
    carryOut service operation requestId timestamp body state = .still (.bare 500) state := by
  rw [carryOut_of_placement hoperation, Service.place, hprepare]
  rfl

/-- A submission is answered, or it is over. -/
theorem answer_submit (service : Service σ) (respond : Json → Response) (operation : Operation)
    (request : Json) (requestId : String) (timestamp : Nat) (state : σ) :
    let outcome := (service.submit respond operation request requestId timestamp state).result
    (Answer.ofOutcome outcome).status = 200 ∨ Answer.ofOutcome outcome = .bare 504 := by
  unfold Service.submit Run.map
  cases (submitAndPoll service.settings service.store operation requestId timestamp request
    state).result with
  | delivered row =>
    left
    show (Answer.ofResponse (respond row)).status = 200
    cases respond row <;> rfl
  | timedOut => exact .inr rfl

/-- A resolved request is submitted. -/
theorem describes_submitted (hoperation : operation = .create ∨ operation = .update)
    {service : Service σ} {envelope : Envelope} {heat : HeatRequest} {resources : Fields Json}
    (hdecode : Envelope.decode body = .ok envelope) (hblank : Envelope.blankNames body = [])
    (hheat : envelope.heat = some heat) (hresolve : heat.resolve = .ok resources) :
    Ending.submitted.Describes operation requestId timestamp body state
      (carryOut service operation requestId timestamp body state) := by
  have hprepare : prepare body = .ok (.ready
      (PlacementRequest.ofEnvelope envelope resources).toJson heat.parameters) := by
    simp only [prepare_of_complete hdecode hblank, hheat, hresolve]
  have hcarries : Carries body heat resources _ := carries_of_complete hdecode hblank hheat
  obtain ⟨later, hcalls, hlater⟩ := submitAndPoll_calls service.settings service.store operation
    (Text.Entity.escape requestId) timestamp (PlacementRequest.ofEnvelope envelope resources).toJson
    state
  rw [carryOut_of_placement hoperation, Service.place, hprepare]
  exact ⟨envelope, heat, resources, _, later, hdecode, unsaid_nil_iff.mpr hblank, hheat, hresolve,
    answer_submit service _ operation _ _ timestamp state, hcalls, hlater, hcarries, _, rfl,
    fun hread => ⟨_, hread, hcarries⟩⟩

end Endings

/-- **Creations and updates are all or nothing.** Whatever the body, the identifier and the store,
a run has exactly one ending. -/
theorem placement_all_or_nothing {operation : Operation}
    (hoperation : operation = .create ∨ operation = .update) (service : Service σ)
    (requestId : String) (timestamp : Nat) (body : Json) (state : σ) :
    ∃! ending : Ending, ending.Describes operation requestId timestamp body state
      (carryOut service operation requestId timestamp body state) := by
  refine existsUnique_of_exists_of_unique ?_ fun _ _ => Ending.eq_of_describes
  -- The cases are those of the service: a body is decoded, checked and resolved, in this order.
  cases hdecode : Envelope.decode body with
  | error cause =>
    exact ⟨.failed, .inl ⟨cause, hdecode⟩,
      carryOut_of_error hoperation (prepare_of_undecoded hdecode)⟩
  | ok envelope =>
    by_cases hblank : Envelope.blankNames body = []
    · cases hheat : envelope.heat with
      | none =>
        have hprepare : prepare body = .error .noHeatRequest := by
          simp only [prepare_of_complete hdecode hblank, hheat]
        exact ⟨.failed, .inr ⟨envelope, hdecode, unsaid_nil_iff.mpr hblank, .inl hheat⟩,
          carryOut_of_error hoperation hprepare⟩
      | some heat =>
        cases hresolve : heat.resolve with
        | error cause =>
          have hprepare : prepare body = .error (.template cause) := by
            simp only [prepare_of_complete hdecode hblank, hheat, hresolve]
          exact ⟨.failed, .inr ⟨envelope, hdecode, unsaid_nil_iff.mpr hblank,
            .inr ⟨heat, cause, hheat, hresolve⟩⟩, carryOut_of_error hoperation hprepare⟩
        | ok resources =>
          exact ⟨.submitted, describes_submitted hoperation hdecode hblank hheat hresolve⟩
    · refine ⟨.refused, envelope, _, hdecode, unsaid_blankNames body, hblank, ?_⟩
      rw [carryOut_of_placement hoperation, Service.place, prepare_of_incomplete hdecode hblank]
      rfl

/-- Bodies as lists of members: a complete one with identifiers of several types, one with a null
tenant, an empty name and no stack request, and a number. -/
theorem placement_all_or_nothing_of_lists :
    let service : Service LocalStore := ⟨LocalStore.store, ⟨⟨25⟩, ⟨10⟩⟩⟩
    let heat : Json := .obj [("template", .obj [("resources", .obj [])])]
    let members (tenant vnfName : Json) : List Json := [.ofNat 1, .str "u", tenant, .arr [],
      .obj [], vnfName, .str "m", .str "k", .null]
    let complete : Json := .arr (members (.bool false) (.str "n") ++ [heat])
    let incomplete : Json := .arr (members .null (.str ""))
    let run (body : Json) := carryOut service .create "r<1" 7 body LocalStore.empty
    let describes (ending : Ending) (body : Json) : Prop :=
      ending.Describes .create "r<1" 7 body LocalStore.empty (run body)
    (Operation.create = .create ∨ Operation.create = .update) ∧
      (describes .submitted complete ∧ (run complete).result.status = 504) ∧
      (describes .refused incomplete ∧ (run incomplete).result.status = 422 ∧
        (run incomplete).result.body = "RequiredFields : [tenant_id, vnf_name]") ∧
      describes .failed (.ofNat 1) ∧ (run (.ofNat 1)).result = ⟨500, none, "", none⟩ := by
  intro service heat members complete incomplete run describes
  have hcreate : Operation.create = .create ∨ Operation.create = .update := .inl rfl
  have hending (ending : Ending) (body : Json)
      (hstatus : (run body).result.status ∈ ending.statuses) : describes ending body := by
    obtain ⟨found, hfound, -⟩ :=
      placement_all_or_nothing hcreate service "r<1" 7 body LocalStore.empty
    rwa [Ending.eq_of_mem_statuses (Ending.status_mem hfound) hstatus] at hfound
  have hcomplete : (run complete).result.status = 504 := by decide +kernel
  have hincomplete : (run incomplete).result.status = 422 ∧
      (run incomplete).result.body = "RequiredFields : [tenant_id, vnf_name]" := by
    decide +kernel
  refine ⟨hcreate, ⟨hending .submitted _ ?_, hcomplete⟩, ⟨hending .refused _ ?_, hincomplete⟩,
    hending .failed _ ?_, by decide +kernel⟩
  · rw [hcomplete]
    decide
  · rw [hincomplete.1]
    decide
  · decide +kernel

end Api

end HeatPlacement
