import HeatPlacement.Placement.Response
import HeatPlacement.Proofs.Json.Distinct
import HeatPlacement.Proofs.Json.ReadBack

/-!
# What callers get from a row

A response to a creation or an update is a failure, a complaint about the row, or the engine's
result merged over the parameters of the request. The status and the result count as they are
decoded, so it does not matter whether their columns hold values or the texts of values.

* `Response.ofPlacement_of_obj`: the response to a row with an object for a result
* `Response.Delivers`: the body of such a response, member by member
* `Response.result_merged_over_parameters`: **the three exits** and what each gives
* `Response.cleared`: a row without the values of its bookkeeping columns
* `Response.encodings_agree`: **values and texts of values** give the same responses
-/

namespace HeatPlacement.Response

open Json (depthLimit)

variable {row status value : Json} {column : Option Json} {columns parameters result : Fields Json}

/-! ### Columns -/

theorem isFailure_iff : isFailure status = true ↔ status.member? "status" = some (.str "failed") :=
  beq_iff_eq

/-- A column gives a value in which every name is bound once. -/
theorem decoded_distinct (h : ∀ value ∈ column, value.Distinct) : (decoded column).Distinct := by
  cases column with
  | none => exact Json.distinct_null
  | some value =>
    cases value with
    | str content =>
      rw [decoded]
      cases hread : Json.read? content with
      | none => exact Json.distinct_str content
      | some read => exact Json.read?_distinct hread
    | _ => exact h _ rfl

/-- Only an object has a column that gives an object. -/
theorem exists_columns_of_decoded {name : String} {fields : Fields Json}
    (h : decoded (row.member? name) = .obj fields) : ∃ columns, row = .obj columns := by
  cases row with
  | obj columns => exact ⟨columns, rfl⟩
  | _ => cases h

/-! ### The three exits -/

theorem ofPlacement_of_isFailure (h : isFailure (decoded (row.member? "status")) = true)
    (parameters : Fields Json) :
    ofPlacement row parameters = statusOnly (decoded (row.member? "status")) :=
  if_pos h

theorem ofPlacement_of_ne_obj (hfailure : ¬ isFailure (decoded (row.member? "status")) = true)
    (hresult : ∀ fields, decoded (row.member? "result") ≠ .obj fields) (parameters : Fields Json) :
    ofPlacement row parameters = .text ("Invalid response : " ++ row.text) := by
  rw [ofPlacement, if_neg hfailure]
  split
  · rename_i fields hobj
    exact absurd hobj (hresult fields)
  · rfl

/-- The members of a response that merges the result over the parameters. -/
def body (columns parameters : Fields Json) (status : Json) (result : Fields Json) : Fields Json :=
  Fields.insert (Fields.insert (bookkeeping.foldl Fields.swapErase columns) "parameters"
    (.obj (Fields.extend parameters result))) "status" status

/-- A row with an object for a result gives a failure or a merged response. -/
theorem ofPlacement_of_obj
    (hresult : decoded (Fields.get? columns "result") = .obj result) (parameters : Fields Json) :
    ofPlacement (.obj columns) parameters =
      if isFailure (decoded (Fields.get? columns "status"))
      then statusOnly (decoded (Fields.get? columns "status"))
      else .json (.obj (body columns parameters (decoded (Fields.get? columns "status"))
        result)) := by
  have hcolumn : decoded ((Json.obj columns).member? "result") = .obj result := hresult
  rw [ofPlacement, hcolumn]
  rfl

/-- What the members of a response are, given the columns of the row, the parameters of the request,
the status and the result. -/
structure Delivers (columns parameters : Fields Json) (status : Json) (result : Fields Json)
    (members : Fields Json) : Prop where
  /-- No member comes twice. -/
  nodup_names : (Fields.names members).Nodup
  /-- The result takes precedence over the parameters, whose order stays. -/
  parameters : ∃ merged, Fields.get? members "parameters" = some (.obj merged) ∧
    Fields.names merged = Fields.names parameters ++
      (Fields.names result).filter (· ∉ Fields.names parameters) ∧
    ∀ key, Fields.get? merged key = (Fields.get? result key).or (Fields.get? parameters key)
  /-- The status is the decoded one. -/
  status : Fields.get? members "status" = some status
  /-- All else is a column of the row. -/
  columns : ∀ name, name ≠ "parameters" → name ≠ "status" → Fields.get? members name =
    if name ∈ ["timestamp", "result", "request_id"] then none else Fields.get? columns name

/-- What is put together is what is to be delivered. -/
theorem body_delivers (hcolumns : (Fields.names columns).Nodup)
    (hresult : (Fields.names result).Nodup) (parameters : Fields Json) (status : Json) :
    Delivers columns parameters status result (body columns parameters status result) where
  nodup_names := Fields.nodup_names_insert (Fields.nodup_names_insert
    (Fields.nodup_names_foldl_swapErase hcolumns bookkeeping) _ _) _ _
  parameters := by
    refine ⟨Fields.extend parameters result, ?_, Fields.names_extend hresult,
      Fields.get?_extend_of_nodup parameters hresult⟩
    rw [body, Fields.get?_insert_of_ne (by decide), Fields.get?_insert_self]
  status := Fields.get?_insert_self _ _ _
  columns := by
    intro name hparameters hstatus
    have hmem : name ∈ bookkeeping ↔ name ∈ ["timestamp", "result", "request_id"] := by
      simp [bookkeeping, hstatus]
    rw [body, Fields.get?_insert_of_ne (Ne.symm hstatus),
      Fields.get?_insert_of_ne (Ne.symm hparameters), Fields.get?_foldl_swapErase hcolumns]
    simp only [hmem]

/-- The status of a response is that of the response to an operation without parameters. -/
theorem status_agrees {answer : Json} (h : ofPlacement row parameters = .json answer) :
    ∃ other, ofStatus row = .json other ∧
      other.member? "status" = some (decoded (row.member? "status")) ∧
      answer.member? "status" = some (decoded (row.member? "status")) := by
  refine ⟨_, rfl, rfl, ?_⟩
  by_cases hfailure : isFailure (decoded (row.member? "status")) = true
  · rw [ofPlacement_of_isFailure hfailure] at h
    cases h
    rfl
  · rw [ofPlacement, if_neg hfailure] at h
    split at h
    · cases h
      exact Fields.get?_insert_self _ _ _
    · cases h

/-- **The result merged over the parameters.** A status that reports a failure is the whole
response; else a result that is no object is reported with the row; else the response has the result
over the parameters, the status, and the row's own columns. Whenever it is an object, its status is
that of the response to an operation without parameters. -/
theorem result_merged_over_parameters {row status result : Json} (hrow : row.Distinct)
    (hstatus : decoded (row.member? "status") = status)
    (hresult : decoded (row.member? "result") = result) (parameters : Fields Json) :
    (status.member? "status" = some (.str "failed") →
      ofPlacement row parameters = .json (.obj [("status", status)])) ∧
    (status.member? "status" ≠ some (.str "failed") →
      ((∀ fields, result ≠ .obj fields) →
        ofPlacement row parameters = .text ("Invalid response : " ++ row.text)) ∧
      ∀ fields, result = .obj fields → ∃ columns members, row = .obj columns ∧
        ofPlacement row parameters = .json (.obj members) ∧
        Delivers columns parameters status fields members) ∧
    ∀ answer, ofPlacement row parameters = .json answer →
      ∃ other, ofStatus row = .json other ∧
        other.member? "status" = some status ∧ answer.member? "status" = some status := by
  subst hstatus hresult
  refine ⟨fun h => ofPlacement_of_isFailure (isFailure_iff.mpr h) parameters, fun hno => ?_,
    fun answer => status_agrees⟩
  have hfailure := mt isFailure_iff.mp hno
  refine ⟨fun hobj => ofPlacement_of_ne_obj hfailure hobj parameters, fun fields hobj => ?_⟩
  obtain ⟨columns, rfl⟩ := exists_columns_of_decoded hobj
  have hfields : (Json.obj fields).Distinct :=
    hobj ▸ decoded_distinct fun value hvalue => hrow.member? hvalue
  exact ⟨columns, _, rfl, (ofPlacement_of_obj hobj parameters).trans (if_neg hfailure),
    body_delivers hrow.nodup_names hfields.nodup_names parameters _⟩

/-- A row whose status and result are texts, with a column that is named like the parameters. -/
def placedRow : Json := .obj [("request_id", .str "create-r1"),
  ("status", .str "\x7b\"status\":\"ok\"\x7d"), ("parameters", .str "none"),
  ("result", .str "\x7b\"flavor\":\"m1.large\",\"zone\":\"az1\"\x7d"), ("rack", .str "r7")]

/-- The result says anew what one of the parameters is, and adds another. -/
theorem result_merged_over_parameters_of_texts :
    placedRow.Distinct ∧
      decoded (placedRow.member? "status") = .obj [("status", .str "ok")] ∧
      decoded (placedRow.member? "result") =
        .obj [("flavor", .str "m1.large"), ("zone", .str "az1")] ∧
      ∃ columns members, placedRow = .obj columns ∧
        ofPlacement placedRow [("name", .str "vm"), ("flavor", .str "m1.small")] =
          .json (.obj members) ∧
        Delivers columns [("name", .str "vm"), ("flavor", .str "m1.small")]
          (.obj [("status", .str "ok")]) [("flavor", .str "m1.large"), ("zone", .str "az1")]
          members := by
  have hrow : placedRow.Distinct := by
    refine Json.distinct_obj_iff.mpr ⟨by decide, ?_⟩
    simp
  have hstatus : decoded (placedRow.member? "status") = .obj [("status", .str "ok")] := by
    decide +kernel
  have hresult : decoded (placedRow.member? "result") =
      .obj [("flavor", .str "m1.large"), ("zone", .str "az1")] := by decide +kernel
  have h := result_merged_over_parameters hrow hstatus hresult
    [("name", .str "vm"), ("flavor", .str "m1.small")]
  exact ⟨hrow, hstatus, hresult, (h.2.1 (by decide)).2 _ rfl⟩

/-! ### Encodings of columns -/

/-- A column without its value, if it is a bookkeeping column. -/
def clear (entry : String × Json) : String × Json :=
  (entry.1, if entry.1 ∈ bookkeeping then .null else entry.2)

/-- The value of a bookkeeping column is cleared, wherever the column stands. -/
theorem map_clear_insert {name : String} (h : name ∈ bookkeeping) (columns : Fields Json)
    (value : Json) :
    (Fields.insert columns name value).map clear =
      Fields.insert (columns.map clear) name .null := by
  induction columns with
  | nil => simp [clear, h]
  | cons entry rest ih =>
    obtain ⟨other, old⟩ := entry
    rw [List.map_cons, Fields.insert_cons, clear, Fields.insert_cons]
    split
    · rename_i hname
      subst hname
      rw [List.map_cons, clear, if_pos h]
    · rw [List.map_cons, ih, clear]

/-- The columns that reach the caller do not depend on the values of the others. -/
theorem foldl_swapErase_map_clear (h : (Fields.names columns).Nodup) :
    bookkeeping.foldl Fields.swapErase (columns.map clear) =
      bookkeeping.foldl Fields.swapErase columns := by
  rw [Fields.foldl_swapErase_map (f := clear) fun _ => rfl]
  refine (List.map_congr_left fun entry hentry => ?_).trans (List.map_id _)
  have hvalue := Fields.get?_of_mem (Fields.nodup_names_foldl_swapErase h bookkeeping) hentry
  rw [Fields.get?_foldl_swapErase h] at hvalue
  split at hvalue
  · cases hvalue
  · rename_i hname
    rw [clear, if_neg hname, id]

/-- Rows that differ in the values of bookkeeping columns give the same response, if their statuses
are decoded alike and their results are decoded to the same object. -/
theorem ofPlacement_congr {columns' : Fields Json} (hcolumns : (Fields.names columns).Nodup)
    (hcolumns' : (Fields.names columns').Nodup) (hclear : columns.map clear = columns'.map clear)
    (hstatus : decoded (Fields.get? columns "status") = decoded (Fields.get? columns' "status"))
    (hresult : decoded (Fields.get? columns "result") = .obj result)
    (hresult' : decoded (Fields.get? columns' "result") = .obj result)
    (parameters : Fields Json) :
    ofPlacement (.obj columns) parameters = ofPlacement (.obj columns') parameters := by
  have hkept : bookkeeping.foldl Fields.swapErase columns =
      bookkeeping.foldl Fields.swapErase columns' := by
    rw [← foldl_swapErase_map_clear hcolumns, hclear, foldl_swapErase_map_clear hcolumns']
  rw [ofPlacement_of_obj hresult, ofPlacement_of_obj hresult', hstatus, body, body, hkept]

/-- The ways in which a column holds a value: as it is, or as its text. -/
def encodings (value : Json) : List Json := [value, .str value.text]

/-- Either way gives the value. -/
theorem decoded_of_mem_encodings {encoded : Json} (hplain : value.plain depthLimit = true)
    (hstr : value.asStr? = none) (h : encoded ∈ encodings value) :
    decoded (some encoded) = value := by
  rcases List.mem_pair.mp h with rfl | rfl
  · cases encoded <;> first | rfl | cases hstr
  · rw [decoded, Json.read?_text hplain, Option.getD_some]

/-- A row with further columns, among which those of the status and the result may have their
places. -/
def resultRow (columns : Fields Json) (status result : Json) : Fields Json :=
  Fields.insert (Fields.insert columns "status" status) "result" result

theorem nodup_names_resultRow (h : (Fields.names columns).Nodup) (status result : Json) :
    (Fields.names (resultRow columns status result)).Nodup :=
  Fields.nodup_names_insert (Fields.nodup_names_insert h _ _) _ _

theorem get?_resultRow_status (columns : Fields Json) (status result : Json) :
    Fields.get? (resultRow columns status result) "status" = some status := by
  rw [resultRow, Fields.get?_insert_of_ne (by decide), Fields.get?_insert_self]

theorem get?_resultRow_result (columns : Fields Json) (status result : Json) :
    Fields.get? (resultRow columns status result) "result" = some result :=
  Fields.get?_insert_self _ _ _

/-- A status text that is not JSON reaches the caller as it is. -/
theorem status_text_passed_on {text : String}
    (hstatus : row.member? "status" = some (.str text)) (htext : Json.read? text = none) :
    ofStatus row = .json (.single "status" (.str text)) ∧
      ∀ fields, decoded (row.member? "result") = .obj fields →
        ∃ answer, ofPlacement row parameters = .json answer ∧
          answer.member? "status" = some (.str text) := by
  have hdecoded : decoded (row.member? "status") = .str text := by
    rw [hstatus, decoded, htext, Option.getD_none]
  refine ⟨by rw [ofStatus, statusOnly, hdecoded], fun fields hfields => ?_⟩
  obtain ⟨columns, rfl⟩ := exists_columns_of_decoded hfields
  have hfailure : ¬ isFailure (decoded ((Json.obj columns).member? "status")) = true := by
    rw [hdecoded]
    exact Bool.false_ne_true
  have hanswer := (ofPlacement_of_obj hfields parameters).trans (if_neg hfailure)
  obtain ⟨-, -, -, hmember⟩ := status_agrees hanswer
  exact ⟨_, hanswer, hdecoded ▸ hmember⟩

/-- **The encoding of a column does not matter.** Rows that give the same status and the same
object for a result, each as a value or as the text of a value, get the same responses, and a
failure is seen in each of them. A status text that is not JSON reaches the caller as it is. -/
theorem encodings_agree {columns result : Fields Json} {status : Json}
    (hcolumns : (Fields.names columns).Nodup) (hstr : status.asStr? = none)
    (hstatus : status.plain depthLimit = true)
    (hresult : (Json.obj result).plain depthLimit = true) (parameters : Fields Json) :
    (∀ first ∈ encodings status, ∀ second ∈ encodings (.obj result),
      ofPlacement (.obj (resultRow columns first second)) parameters =
          ofPlacement (.obj (resultRow columns status (.obj result))) parameters ∧
        ofStatus (.obj (resultRow columns first second)) =
          ofStatus (.obj (resultRow columns status (.obj result))) ∧
        (status.member? "status" = some (.str "failed") →
          ofPlacement (.obj (resultRow columns first second)) parameters =
            .json (.single "status" status))) ∧
    ∀ row text, row.member? "status" = some (.str text) → Json.read? text = none →
      ofStatus row = .json (.single "status" (.str text)) ∧
        ∀ fields, decoded (row.member? "result") = .obj fields →
          ∃ answer, ofPlacement row parameters = .json answer ∧
            answer.member? "status" = some (.str text) := by
  refine ⟨fun first hfirst second hsecond => ?_, fun row text => status_text_passed_on⟩
  have hnames (first second : Json) := nodup_names_resultRow hcolumns first second
  have hclear (first second : Json) :
      (resultRow columns first second).map clear = resultRow (columns.map clear) .null .null := by
    rw [resultRow, map_clear_insert (by decide), map_clear_insert (by decide), resultRow]
  have hdecoded {first second : Json} (hfirst : first ∈ encodings status) :
      decoded (Fields.get? (resultRow columns first second) "status") = status := by
    rw [get?_resultRow_status, decoded_of_mem_encodings hstatus hstr hfirst]
  have hobj {first second : Json} (hsecond : second ∈ encodings (.obj result)) :
      decoded (Fields.get? (resultRow columns first second) "result") = .obj result := by
    rw [get?_resultRow_result, decoded_of_mem_encodings hresult rfl hsecond]
  have hself (value : Json) : value ∈ encodings value := List.mem_cons_self
  refine ⟨?_, ?_, fun hfailed => ?_⟩
  · exact ofPlacement_congr (hnames _ _) (hnames _ _) ((hclear _ _).trans (hclear _ _).symm)
      ((hdecoded hfirst).trans (hdecoded (hself status)).symm) (hobj hsecond) (hobj (hself _))
      parameters
  · exact congrArg statusOnly ((hdecoded hfirst).trans (hdecoded (hself status)).symm)
  · have hfailure := isFailure_iff.mpr hfailed
    rw [ofPlacement_of_obj (hobj hsecond), hdecoded hfirst, if_pos hfailure, statusOnly]

/-- A status with a quotation in its message. -/
def quotingStatus : Json := .obj [("status", .str "ok"), ("message", .str "on \"r7\"")]

/-- A result with a list in it. -/
def listedResult : Fields Json := [("slots", .arr [.ofNat 1, .ofNat 2])]

/-- A status and a result that are both given by their texts. -/
theorem encodings_agree_of_texts :
    (Fields.names [("status", Json.null), ("rack", .str "r7")]).Nodup ∧
      quotingStatus.asStr? = none ∧ quotingStatus.plain depthLimit = true ∧
      (Json.obj listedResult).plain depthLimit = true ∧
      ofPlacement (.obj (resultRow [("status", .null), ("rack", .str "r7")]
          (.str quotingStatus.text) (.str (Json.obj listedResult).text))) [("slots", .null)] =
        ofPlacement (.obj (resultRow [("status", .null), ("rack", .str "r7")]
          quotingStatus (.obj listedResult))) [("slots", .null)] := by
  have hcolumns : (Fields.names [("status", Json.null), ("rack", .str "r7")]).Nodup := by decide
  have hstatus : quotingStatus.plain depthLimit = true := by decide
  have hresult : (Json.obj listedResult).plain depthLimit = true := by decide
  have hagree := (encodings_agree hcolumns rfl hstatus hresult [("slots", .null)]).1
    (.str quotingStatus.text) (List.mem_pair.mpr (.inr rfl))
    (.str (Json.obj listedResult).text) (List.mem_pair.mpr (.inr rfl))
  exact ⟨hcolumns, rfl, hstatus, hresult, hagree.1⟩

end HeatPlacement.Response
