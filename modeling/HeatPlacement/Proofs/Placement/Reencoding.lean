import HeatPlacement.Placement.Service
import HeatPlacement.Proofs.Json.Distinct
import HeatPlacement.Proofs.Json.ReadBack
import HeatPlacement.Proofs.Placement.Received

/-!
# Envelopes that are written again

An envelope has a form of its own: an object without nulls, with a stack request that has all its
members. A body of either form, object or list, and with members in any order comes to an envelope
whose form says the same.

* `Decode.part`, `Decode.present`: what a value says about a field of a record
* `HeatRequest.Reads`, `Envelope.Reads`: a record that is what a value says
* `HeatRequest.reads_of_decode`, `Envelope.reads_of_decode`: **what is decoded is what was said**
* `HeatRequest.decode_toJson`, `Envelope.decode_toJson`: **the form of a record** is read as it
* `Envelope.reencoding_agrees`: a body and the form of its envelope come to the same
-/

namespace HeatPlacement

/-- A look-up among the values under some names, without those that have none. -/
theorem Fields.get?_filterMap_names {α : Type} (value : String → Option α) (names : List String)
    (key : String) :
    get? (names.filterMap fun name => (value name).map (name, ·)) key =
      if key ∈ names then value key else none := by
  induction names with
  | nil => rfl
  | cons name rest ih =>
    by_cases hname : name = key
    · subst hname
      cases hvalue : value name with
      | none => simp [hvalue, ih]
      | some found => simp [hvalue, get?_cons]
    · cases hvalue : value name with
      | none => simp [hvalue, ih, Ne.symm hname]
      | some found => simp [hvalue, get?_cons, ih, hname, Ne.symm hname]

theorem Fields.names_filterMap_names_sublist {α : Type} (value : String → Option α)
    (names : List String) :
    (Fields.names (names.filterMap fun name => (value name).map (name, ·))).Sublist names := by
  induction names with
  | nil => exact .slnil
  | cons name rest ih =>
    cases hvalue : value name with
    | none => simpa [hvalue] using ih.cons name
    | some found => simpa [hvalue] using ih.cons_cons name

/-! ### Records -/

namespace Decode

variable {α : Type} {names : List String} {set : α → String → Json → Except DecodeError α}

/-- What a value says about a field of a record: its member, or its item in the place of the
field. -/
def part (names : List String) (value : Json) (name : String) : Option Json :=
  Fields.get? (entries names value) name

/-- What a value says about a field, unless this is null. -/
def present (names : List String) (value : Json) (name : String) : Option Json :=
  (part names value name).filter fun member => !member.isNull

theorem names_zip_sublist (names : List String) (items : List Json) :
    (Fields.names (names.zip items)).Sublist names := by
  induction names generalizing items with
  | nil => exact .slnil
  | cons name rest ih =>
    cases items with
    | nil => exact List.nil_sublist _
    | cons item more => exact (ih more).cons_cons name

theorem nodup_names_entries (hnames : names.Nodup) {value : Json} (h : value.Distinct) :
    (Fields.names (entries names value)).Nodup := by
  cases value with
  | obj fields => exact h.nodup_names
  | arr items => exact hnames.sublist (names_zip_sublist names items)
  | _ => exact List.nodup_nil

theorem part_distinct {value member : Json} {name : String} (h : value.Distinct)
    (hmember : part names value name = some member) : member.Distinct := by
  cases value with
  | obj fields => exact h.member? hmember
  | arr items =>
    have hmem := Fields.mem_of_get? hmember
    exact Json.distinct_arr_iff.mp h member (List.of_mem_zip hmem).2
  | _ => cases hmember

/-- Where no field comes twice, one word about it is the last word. -/
theorem received_eq_part (value : Json) (h : (Fields.names (entries names value)).Nodup)
    (name : String) : received names value name = part names value name :=
  congrFun (Fields.get?_eq_of_perm (List.reverse_perm _) h) name

/-- A record is decoded if each of its fields can be set. -/
theorem exists_setFields {fields : Fields Json}
    (h : ∀ entry ∈ fields, entry.1 ∈ names → ∀ record, ∃ next,
      set record entry.1 entry.2 = .ok next) (start : α) :
    ∃ result, setFields names set start fields = .ok result := by
  induction fields generalizing start with
  | nil => exact ⟨start, rfl⟩
  | cons entry rest ih =>
    obtain ⟨name, value⟩ := entry
    have hrest := fun start =>
      ih (fun entry hentry => h entry (List.mem_cons_of_mem _ hentry)) start
    rw [setFields]
    split
    · rename_i hname
      obtain ⟨next, hnext⟩ := h _ List.mem_cons_self (List.contains_iff_mem.mp hname) start
      simpa only [hnext] using hrest next
    · exact hrest start

/-- Null and nothing are no value, and all else is decoded. -/
theorem optional_eq_ok {β : Type} {decode : Json → Except DecodeError β} {value : Json}
    {found : Option β} (h : optional decode value = .ok found) :
    (value = .null ∧ found = none) ∨
      ∃ content, value.isNull = false ∧ decode value = .ok content ∧ found = some content := by
  unfold optional at h
  split at h
  · cases h
    exact .inl ⟨rfl, rfl⟩
  · rename_i hvalue
    have hnull : value.isNull = false := by
      cases value with
      | null => exact absurd rfl hvalue
      | _ => rfl
    cases hdecode : decode value with
    | error cause =>
      rw [hdecode] at h
      cases h
    | ok content =>
      rw [hdecode] at h
      cases h
      exact .inr ⟨content, hnull, rfl, rfl⟩

theorem text_eq_ok {value : Json} {content : String} (h : text value = .ok content) :
    value = .str content := by
  cases value with
  | str s =>
    cases h
    rfl
  | _ => cases h

theorem mapping_eq_ok {value : Json} {content : Fields Json} (h : mapping value = .ok content) :
    value = .obj content := by
  cases value with
  | obj fields =>
    cases h
    rfl
  | _ => cases h

/-- A field that may be null or missing, decoded from what was last said about it. -/
theorem filter_cases_of_optional {β : Type} {decode : Json → Except DecodeError β}
    {said : Option Json} {found : Option β}
    (h : (said.map (optional decode)).getD (.ok none) = .ok found) :
    (said.filter (fun member => !member.isNull) = none ∧ found = none) ∨
      ∃ value content, said.filter (fun member => !member.isNull) = some value ∧
        decode value = .ok content ∧ found = some content := by
  cases said with
  | none =>
    cases h
    exact .inl ⟨rfl, rfl⟩
  | some value =>
    rcases optional_eq_ok h with ⟨rfl, rfl⟩ | ⟨content, hnull, hcontent, rfl⟩
    · exact .inl ⟨rfl, rfl⟩
    · exact .inr ⟨value, content, by simp [hnull], hcontent, rfl⟩

/-- Where decoding changes nothing, the field is what was said. -/
theorem filter_eq_of_optional {β : Type} {decode : Json → Except DecodeError β} {encode : β → Json}
    (hdecode : ∀ {value content}, decode value = .ok content → value = encode content)
    {said : Option Json} {found : Option β}
    (h : (said.map (optional decode)).getD (.ok none) = .ok found) :
    said.filter (fun member => !member.isNull) = found.map encode := by
  rcases filter_cases_of_optional h with ⟨hsaid, rfl⟩ | ⟨value, content, hsaid, hcontent, rfl⟩
  · exact hsaid
  · rw [hsaid, Option.map_some, hdecode hcontent]

/-- A mapping that may be null or missing, decoded from what was last said about it. -/
theorem getD_filter_eq_of_mapping {said : Option Json} {found : Fields Json}
    (h : (said.map fun value => (optional mapping value).map (·.getD [])).getD (.ok []) =
      .ok found) :
    (said.filter fun member => !member.isNull).getD (.obj []) = .obj found := by
  cases said with
  | none =>
    cases h
    rfl
  | some value =>
    rw [Option.map_some, Option.getD_some] at h
    cases hvalue : optional mapping value with
    | error cause =>
      rw [hvalue] at h
      cases h
    | ok content =>
      rw [hvalue] at h
      cases h
      have hfilter : (some value).filter (fun member => !member.isNull) = content.map .obj :=
        filter_eq_of_optional mapping_eq_ok hvalue
      rw [hfilter]
      cases content <;> rfl

/-- A field that takes any value, from what was last said about it. -/
theorem getD_eq_of_ok {said : Option Json} {start found : Json}
    (h : (said.map Except.ok).getD (.ok start) = (.ok found : Except DecodeError Json)) :
    said.getD start = found := by
  cases said <;> exact Except.ok.inj h

end Decode

/-! ### Stack requests -/

namespace HeatRequest

open Decode (part present)

variable {request next : HeatRequest} {name : String} {value : Json}

/-- **What a stack request says**, given as an object or as a list. Mappings that are missing or
null are empty, and documents that are missing are null. -/
structure Reads (value : Json) (request : HeatRequest) : Prop where
  stackName : request.stackName.map Json.str = present memberNames value "stack_name"
  template : request.template = (part memberNames value "template").getD .null
  files : Json.obj request.files = (present memberNames value "files").getD (.obj [])
  environment : request.environment = (part memberNames value "environment").getD .null
  parameters : Json.obj request.parameters =
    (present memberNames value "parameters").getD (.obj [])

/-- **What it is to set a member**: it is decoded, and the others stay. -/
structure Sets (request : HeatRequest) (name : String) (value : Json) (next : HeatRequest) :
    Prop where
  stackName : if name = "stack_name" then Decode.optional Decode.text value = .ok next.stackName
    else next.stackName = request.stackName
  template : if name = "template" then .ok value = (.ok next.template : Except DecodeError Json)
    else next.template = request.template
  files : if name = "files" then
      (Decode.optional Decode.mapping value).map (·.getD []) = .ok next.files
    else next.files = request.files
  environment : if name = "environment" then
      .ok value = (.ok next.environment : Except DecodeError Json)
    else next.environment = request.environment
  parameters : if name = "parameters" then
      (Decode.optional Decode.mapping value).map (·.getD []) = .ok next.parameters
    else next.parameters = request.parameters

theorem sets_of_set (hname : name ∈ memberNames) (h : set request name value = .ok next) :
    Sets request name value next := by
  simp only [memberNames, List.mem_cons, List.not_mem_nil, or_false] at hname
  rcases hname with rfl | rfl | rfl | rfl | rfl
  · rw [set] at h
    cases hvalue : Decode.optional Decode.text value <;> rw [hvalue] at h <;> cases h
    exact ⟨hvalue, rfl, rfl, rfl, rfl⟩
  · cases h
    exact ⟨rfl, rfl, rfl, rfl, rfl⟩
  · rw [set] at h
    cases hvalue : Decode.optional Decode.mapping value <;> rw [hvalue] at h <;> cases h
    exact ⟨rfl, rfl, congrArg (Except.map _) hvalue, rfl, rfl⟩
  · cases h
    exact ⟨rfl, rfl, rfl, rfl, rfl⟩
  · rw [set] at h
    cases hvalue : Decode.optional Decode.mapping value <;> rw [hvalue] at h <;> cases h
    exact ⟨rfl, rfl, rfl, rfl, congrArg (Except.map _) hvalue⟩

/-- A member is decoded from what was last said about it. -/
theorem member_of_decode {β : Type} (hname : name ∈ memberNames) {member : HeatRequest → β}
    {read : Json → Except DecodeError β}
    (hsets : ∀ {request other value next}, Sets request other value next →
      if other = name then read value = .ok (member next) else member next = member request)
    (hnames : (Fields.names (Decode.entries memberNames value)).Nodup)
    (h : decode value = .ok request) :
    ((part memberNames value name).map read).getD (.ok (member empty)) = .ok (member request) := by
  rw [← Decode.received_eq_part _ hnames]
  refine Decode.setFields_field hname member read (fun hset => ?_) (fun hmem hne hset => ?_)
    (Decode.setFields_of_record h)
  · simpa only [if_true] using hsets (sets_of_set hname hset)
  · simpa only [if_neg hne] using hsets (sets_of_set hmem hset)

/-- **A stack request is what was said.** -/
theorem reads_of_decode (hnames : (Fields.names (Decode.entries memberNames value)).Nodup)
    (h : decode value = .ok request) : Reads value request where
  stackName := (Decode.filter_eq_of_optional Decode.text_eq_ok
    (member_of_decode (by decide) Sets.stackName hnames h)).symm
  template := (Decode.getD_eq_of_ok (member_of_decode (by decide) Sets.template hnames h)).symm
  files := (Decode.getD_filter_eq_of_mapping
    (member_of_decode (by decide) Sets.files hnames h)).symm
  environment :=
    (Decode.getD_eq_of_ok (member_of_decode (by decide) Sets.environment hnames h)).symm
  parameters := (Decode.getD_filter_eq_of_mapping
    (member_of_decode (by decide) Sets.parameters hnames h)).symm

/-- **The form of a stack request** is read as the stack request. -/
theorem decode_toJson (request : HeatRequest) : decode request.toJson = .ok request := by
  obtain ⟨_ | stackName, template, files, environment, parameters⟩ := request <;> rfl

theorem nodup_names_toJson (request : HeatRequest) :
    (Fields.names (Decode.entries memberNames request.toJson)).Nodup := by
  obtain ⟨_ | stackName, template, files, environment, parameters⟩ := request <;>
    simp [toJson, Decode.entries]

end HeatRequest

/-! ### Envelopes -/

namespace Envelope

open Decode (part present)

variable {envelope other : Envelope} {name : String} {body : Json}

/-- **What an envelope says**, given as an object or as a list: its identifiers as they were sent,
and its stack request. Null is nothing. -/
structure Reads (body : Json) (envelope : Envelope) : Prop where
  identifiers : ∀ name ∈ identifierNames, envelope.field name = present memberNames body name
  noHeat : present memberNames body "heat_request" = none → envelope.heat = none
  heat : ∀ value, present memberNames body "heat_request" = some value →
    ∃ heat, envelope.heat = some heat ∧ HeatRequest.Reads value heat

theorem heat_of_set {next : Envelope} {value : Json} (hname : name ∈ memberNames)
    (h : set envelope name value = .ok next) :
    if name = "heat_request" then Decode.optional HeatRequest.decode value = .ok next.heat
      else next.heat = envelope.heat := by
  simp only [memberNames, requiredNames, List.cons_append, List.nil_append, List.mem_cons,
    List.not_mem_nil, or_false] at hname
  rcases hname with rfl | rfl | rfl | rfl | rfl | rfl | rfl | rfl | rfl | rfl
  case inr.inr.inr.inr.inr.inr.inr.inr.inr =>
    rw [set] at h
    cases hvalue : Decode.optional HeatRequest.decode value <;> rw [hvalue] at h <;> cases h
    rfl
  all_goals
    cases h
    rfl

/-- The stack request is decoded from what was last said about it. -/
theorem heat_of_decode (h : decode body = .ok envelope) :
    ((received body "heat_request").map (Decode.optional HeatRequest.decode)).getD (.ok none) =
      .ok envelope.heat :=
  Decode.setFields_field (by decide) Envelope.heat (Decode.optional HeatRequest.decode)
    (fun hset => by simpa only [if_true] using heat_of_set (by decide) hset)
    (fun hmem hne hset => by simpa only [if_neg hne] using heat_of_set hmem hset)
    (Decode.setFields_of_record h)

/-- **An envelope is what was said.** -/
theorem reads_of_decode (hnames : (Fields.names (Decode.entries memberNames body)).Nodup)
    (hinner : ∀ value, present memberNames body "heat_request" = some value →
      (Fields.names (Decode.entries HeatRequest.memberNames value)).Nodup)
    (h : decode body = .ok envelope) : Reads body envelope := by
  have hreceived (name : String) : received body name = part memberNames body name :=
    Decode.received_eq_part _ hnames name
  have hheat := heat_of_decode h
  rw [hreceived] at hheat
  refine ⟨fun name hname => ?_, fun hnone => ?_, fun value hvalue => ?_⟩
  · rw [field_of_decode h hname, hreceived, bind_sent, present]
  · rcases Decode.filter_cases_of_optional hheat with ⟨-, hnothing⟩ | ⟨value, _, hvalue, -⟩
    · exact hnothing
    · exact absurd (hvalue.symm.trans hnone) nofun
  · rcases Decode.filter_cases_of_optional hheat with ⟨hnone, -⟩ | ⟨_, heat, hsaid, hdecode, hsome⟩
    · exact absurd (hvalue.symm.trans hnone) nofun
    · obtain rfl := Option.some.inj (hvalue.symm.trans hsaid)
      exact ⟨heat, hsome, HeatRequest.reads_of_decode (hinner value hvalue) hdecode⟩

/-- An envelope is its identifiers and its stack request. -/
theorem ext_field (hfield : ∀ name ∈ identifierNames, envelope.field name = other.field name)
    (hheat : envelope.heat = other.heat) : envelope = other := by
  simp only [identifierNames, requiredNames, List.cons_append, List.nil_append,
    List.forall_mem_cons] at hfield
  obtain ⟨h1, h2, h3, h4, h5, h6, h7, h8, h9, -⟩ := hfield
  cases envelope
  cases other
  exact mk.injEq .. ▸ ⟨h1, h2, h3, h4, h5, h6, h7, h8, h9, hheat⟩

/-! ### The form of an envelope -/

/-- The members of the form of an envelope. -/
def members (envelope : Envelope) : Fields Json :=
  identifierNames.filterMap (fun name => (envelope.field name).map (name, ·)) ++
    (envelope.heat.map fun heat => ("heat_request", heat.toJson)).toList

theorem names_members_sublist (envelope : Envelope) :
    (Fields.names envelope.members).Sublist memberNames := by
  have hinit : memberNames = identifierNames ++ ["heat_request"] := rfl
  rw [members, Fields.names_append, hinit]
  refine .append (Fields.names_filterMap_names_sublist _ _) ?_
  cases envelope.heat with
  | none => exact List.nil_sublist _
  | some heat => exact .refl _

theorem get?_members_of_mem (hname : name ∈ identifierNames) :
    Fields.get? envelope.members name = envelope.field name := by
  have hne : "heat_request" ≠ name := by
    rintro rfl
    exact absurd hname (by decide)
  rw [members, Fields.get?_append, Fields.get?_filterMap_names, if_pos hname]
  cases envelope.heat <;> simp [Fields.get?_cons, hne]

theorem get?_members_heat :
    Fields.get? envelope.members "heat_request" = envelope.heat.map HeatRequest.toJson := by
  have hname : "heat_request" ∉ identifierNames := by decide
  rw [members, Fields.get?_append, Fields.get?_filterMap_names, if_neg hname]
  cases envelope.heat <;> simp [Fields.get?_cons]

theorem exists_set_of_mem (hname : name ∈ identifierNames) (envelope : Envelope) (value : Json) :
    ∃ next, set envelope name value = .ok next := by
  simp only [identifierNames, requiredNames, List.cons_append, List.nil_append, List.mem_cons,
    List.not_mem_nil, or_false] at hname
  rcases hname with rfl | rfl | rfl | rfl | rfl | rfl | rfl | rfl | rfl <;> exact ⟨_, rfl⟩

theorem optional_decode_toJson (heat : HeatRequest) :
    Decode.optional HeatRequest.decode heat.toJson = .ok (some heat) :=
  congrArg (Except.map some) heat.decode_toJson

/-- Every member of the form can be set. -/
theorem exists_set_of_mem_members {entry : String × Json} (h : entry ∈ envelope.members)
    (record : Envelope) : ∃ next, set record entry.1 entry.2 = .ok next := by
  rcases List.mem_append.mp h with h | h
  · obtain ⟨name, hname, hentry⟩ := List.mem_filterMap.mp h
    obtain ⟨value, -, rfl⟩ := Option.map_eq_some_iff.mp hentry
    exact exists_set_of_mem hname record value
  · obtain ⟨heat, -, rfl⟩ := Option.map_eq_some_iff.mp (Option.mem_toList.mp h)
    rw [set, optional_decode_toJson]
    exact ⟨_, rfl⟩

theorem nodup_names_members (envelope : Envelope) : (Fields.names envelope.members).Nodup :=
  (by decide : memberNames.Nodup).sublist envelope.names_members_sublist

/-- **The form of an envelope without nulls** is read as the envelope. -/
theorem decode_toJson (hnull : ∀ name ∈ identifierNames, envelope.field name ≠ some .null) :
    decode envelope.toJson = .ok envelope := by
  obtain ⟨result, hdecode⟩ : ∃ result, decode envelope.toJson = .ok result :=
    Decode.exists_setFields (fun _ hentry _ => exists_set_of_mem_members hentry) empty
  have hreceived (name : String) : received envelope.toJson name =
      Fields.get? envelope.members name :=
    Decode.received_eq_part envelope.toJson envelope.nodup_names_members name
  have hheat := heat_of_decode hdecode
  rw [hreceived, get?_members_heat] at hheat
  rw [hdecode]
  refine congrArg Except.ok (ext_field (fun name hname => ?_) ?_)
  · rw [field_of_decode hdecode hname, hreceived, get?_members_of_mem hname]
    have hname := hnull name hname
    cases hfield : envelope.field name with
    | none => rfl
    | some value => cases value <;> first | rfl | exact absurd hfield hname
  · cases hvalue : envelope.heat with
    | none =>
      rw [hvalue] at hheat
      exact (Except.ok.inj hheat).symm
    | some heat =>
      rw [hvalue, Option.map_some, Option.map_some, optional_decode_toJson] at hheat
      exact (Except.ok.inj hheat).symm

/-- No identifier of an envelope that was decoded is null. -/
theorem field_ne_null (h : decode body = .ok envelope) (hname : name ∈ identifierNames) :
    envelope.field name ≠ some .null := by
  rw [field_of_decode h hname]
  cases received body name with
  | none => exact nofun
  | some value => cases value <;> exact nofun

/-- **Envelopes are written as they were read.** What is decoded from a body, given as an object or
as a list, is decoded again from its own form, and has the same text then. Body and form say the
same about each member, and so the same comes of them when they are checked, resolved and packaged.
The identifiers are the members of an object that are not null. -/
theorem reencoding_agrees {body : Json} {envelope : Envelope} (hbody : body.Distinct)
    (h : decode body = .ok envelope) :
    decode envelope.toJson = .ok envelope ∧
    (∀ again, decode envelope.toJson = .ok again → again.toJson.text = envelope.toJson.text) ∧
    (envelope.toJson.plain Json.depthLimit = true → ∃ value,
      Json.read? envelope.toJson.text = some value ∧ decode value = .ok envelope) ∧
    Reads body envelope ∧ Reads envelope.toJson envelope ∧
    (∀ fields, body = .obj fields → ∀ name ∈ identifierNames,
      envelope.field name = body.stated name ∧ envelope.toJson.stated name = body.stated name) ∧
    prepare envelope.toJson = prepare body := by
  have hagain : decode envelope.toJson = .ok envelope := decode_toJson fun name => field_ne_null h
  have hreads : Reads body envelope := by
    refine reads_of_decode (Decode.nodup_names_entries (by decide) hbody) (fun value hvalue => ?_) h
    have hpart := (Option.filter_eq_some_iff.mp hvalue).1
    exact Decode.nodup_names_entries (by decide) (Decode.part_distinct hbody hpart)
  have hreads' : Reads envelope.toJson envelope := by
    refine reads_of_decode envelope.nodup_names_members (fun value hvalue => ?_) hagain
    have hpart := (Option.filter_eq_some_iff.mp hvalue).1
    obtain ⟨heat, -, rfl⟩ := Option.map_eq_some_iff.mp (get?_members_heat.symm.trans hpart)
    exact heat.nodup_names_toJson
  refine ⟨hagain, fun again hdecode => ?_, fun hplain => ⟨_, Json.read?_text hplain, hagain⟩,
    hreads, hreads', ?_, ?_⟩
  · rw [hagain] at hdecode
    cases hdecode
    rfl
  · rintro fields rfl name hname
    have hfield : envelope.field name = (Json.obj fields).stated name :=
      hreads.identifiers name hname
    exact ⟨hfield, (hreads'.identifiers name hname).symm.trans hfield⟩
  · rw [prepare, prepare, hagain, h]

/-- A body with a null, a number and an unknown name among its members, and with a list for its
stack request, in which the files are null. -/
def sparseBody : Json := .obj [("vnf_id", .null), ("note", .bool true), ("tenant_id", .ofNat 42),
  ("heat_request", .arr [.null, .str "resources:", .null])]

/-- The envelope in it. -/
def sparse : Envelope :=
  { empty with tenantId := some (.ofNat 42), heat := some ⟨none, .str "resources:", [], .null, []⟩ }

/-- Nulls and unknown members are left out, and the stack request becomes an object. -/
theorem reencoding_agrees_of_sparse :
    sparseBody.Distinct ∧ decode sparseBody = .ok sparse ∧
      decode sparse.toJson = .ok sparse ∧ Reads sparseBody sparse ∧ Reads sparse.toJson sparse ∧
      prepare sparse.toJson = prepare sparseBody := by
  have hbody : sparseBody.Distinct := by
    refine Json.distinct_obj_iff.mpr ⟨by decide, ?_⟩
    simp [Json.distinct_arr_iff, Json.ofNat]
  have hdecode : decode sparseBody = .ok sparse := by decide
  have h := reencoding_agrees hbody hdecode
  exact ⟨hbody, hdecode, h.1, h.2.2.2.1, h.2.2.2.2.1, h.2.2.2.2.2.2⟩

end Envelope

end HeatPlacement
