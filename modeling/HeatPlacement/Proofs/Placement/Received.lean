import HeatPlacement.Placement.Envelope
import HeatPlacement.Proofs.Fields

/-!
# What an envelope takes from a body

A record is decoded from the members of an object or from the items of a list, one field after
another. What it holds in the end is what was last said about each field.

* `Json.stated`: what a value says under a name
* `Decode.received`: what a value says about a field of a record
* `Decode.setFields_field`: **a field holds what was received for it**
* `Envelope.field_of_decode`: the identifiers of an envelope
* `Envelope.missing_of_decode`: the missing identifiers, read off the body
* `Envelope.exists_received_of_complete`: where none is missing, each is what was received
-/

namespace HeatPlacement

/-- What a value says under a name: its member, unless this is null. -/
def Json.stated (value : Json) (name : String) : Option Json :=
  (value.member? name).filter fun member => !member.isNull

theorem Envelope.bind_sent (value : Option Json) :
    value.bind sent = value.filter fun member => !member.isNull := by
  cases value with
  | none => rfl
  | some value => cases value <;> rfl

namespace Decode

/-- The entries that a value has for a record: the members of an object, or the items of a list for
the fields in their order. -/
def entries (names : List String) : Json → Fields Json
  | .obj fields => fields
  | .arr items => names.zip items
  | _ => []

/-- What a value says about a field of a record; the last word counts. -/
def received (names : List String) (value : Json) (name : String) : Option Json :=
  Fields.get? (entries names value).reverse name

variable {α β : Type} {names : List String} {set : α → String → Json → Except DecodeError α}
  {start result : α}

/-- A record is decoded from its entries. -/
theorem setFields_of_record {expected : String} {value : Json}
    (h : record expected names set start value = .ok result) :
    setFields names set start (entries names value) = .ok result := by
  cases value with
  | obj fields => exact h
  | arr items =>
    rw [record] at h
    cases hset : setFields names set start (names.zip items) with
    | error cause =>
      rw [hset] at h
      cases h
    | ok last =>
      rw [hset] at h
      change (if names.length < items.length then _ else Except.ok last) = .ok result at h
      split at h
      · cases h
      · exact hset.trans h
  | _ => cases h

/-- **A field holds what was received for it**, or else what it held at the start. -/
theorem setFields_field {name : String} (hname : name ∈ names) (field : α → β)
    (read : Json → Except DecodeError β)
    (hself : ∀ {record value next}, set record name value = .ok next →
      read value = .ok (field next))
    (hother : ∀ {record other value next}, other ∈ names → other ≠ name →
      set record other value = .ok next → field next = field record)
    {fields : Fields Json} (h : setFields names set start fields = .ok result) :
    ((Fields.get? fields.reverse name).map read).getD (.ok (field start)) =
      .ok (field result) := by
  induction fields generalizing start with
  | nil =>
    cases h
    rfl
  | cons entry rest ih =>
    obtain ⟨key, value⟩ := entry
    rw [List.reverse_cons, Fields.get?_append, Fields.get?_cons, Fields.get?_nil]
    rw [setFields] at h
    split at h
    · rename_i hkey
      split at h
      · rename_i next hset
        have hrest := ih h
        cases hlast : Fields.get? rest.reverse name with
        | some last => simpa [hlast] using hrest
        | none =>
          rw [hlast] at hrest
          -- Nothing comes after this entry: it is the last word if it is about the field at all.
          by_cases heq : key = name
          · subst heq
            simpa using (hself hset).trans hrest
          · have hsame : field next = field start :=
              hother (List.contains_iff_mem.mp hkey) heq hset
            simpa [heq, hsame] using hrest
      · cases h
    · rename_i hkey
      have heq : key ≠ name := fun heq => hkey (List.contains_iff_mem.mpr (heq ▸ hname))
      simpa [heq] using ih h

end Decode

namespace Envelope

/-- The identifiers that an envelope may hold. -/
def identifierNames : List String := requiredNames ++ ["stack_name"]

theorem mem_identifierNames {name : String} (h : name ∈ requiredNames) :
    name ∈ identifierNames :=
  List.mem_append_left _ h

/-- What a body says about a member of an envelope. -/
def received (body : Json) (name : String) : Option Json := Decode.received memberNames body name

/-- The required identifiers about which a body says nothing, null or the empty string. -/
def blankNames (body : Json) : List String :=
  requiredNames.filter fun name => isBlank (received body name)

variable {envelope next : Envelope} {name other : String} {value body : Json}

theorem field_set_self (hname : name ∈ identifierNames) (h : set envelope name value = .ok next) :
    next.field name = sent value := by
  simp only [identifierNames, requiredNames, List.cons_append, List.nil_append, List.mem_cons,
    List.not_mem_nil, or_false] at hname
  rcases hname with rfl | rfl | rfl | rfl | rfl | rfl | rfl | rfl | rfl <;>
  · cases h
    rfl

theorem field_set_of_ne (hother : other ∈ memberNames) (hne : other ≠ name)
    (h : set envelope other value = .ok next) : next.field name = envelope.field name := by
  simp only [memberNames, requiredNames, List.cons_append, List.nil_append, List.mem_cons,
    List.not_mem_nil, or_false] at hother
  have hheat (heat : Option HeatRequest) :
      field { envelope with heat := heat } name = envelope.field name := by
    unfold field
    split <;> rfl
  rcases hother with rfl | rfl | rfl | rfl | rfl | rfl | rfl | rfl | rfl | rfl
  case inr.inr.inr.inr.inr.inr.inr.inr.inr =>
    rw [set] at h
    cases hvalue : Decode.optional HeatRequest.decode value with
    | error cause =>
      rw [hvalue] at h
      cases h
    | ok heat =>
      rw [hvalue] at h
      cases h
      exact hheat heat
  all_goals
    cases h
    unfold field
    split <;> first | rfl | exact absurd rfl hne

/-- The identifiers of an envelope are what was received, null as none. -/
theorem field_of_decode (h : decode body = .ok envelope) (hname : name ∈ identifierNames) :
    envelope.field name = (received body name).bind sent := by
  have hempty : empty.field name = none := by
    unfold field
    split <;> rfl
  have hmember : name ∈ memberNames := by
    have hinit : memberNames = identifierNames ++ ["heat_request"] := rfl
    rw [hinit]
    exact List.mem_append_left _ hname
  have hfield := Decode.setFields_field hmember (field · name)
    (fun value => .ok (sent value))
    (fun hset => congrArg Except.ok (field_set_self hname hset).symm)
    (fun hother hne hset => field_set_of_ne hother hne hset) (Decode.setFields_of_record h)
  change ((received body name).map fun value => Except.ok (sent value)).getD
    (.ok (empty.field name)) = _ at hfield
  rw [hempty] at hfield
  cases hreceived : received body name with
  | none =>
    rw [hreceived] at hfield
    exact (Except.ok.inj hfield).symm
  | some value =>
    rw [hreceived] at hfield
    exact (Except.ok.inj hfield).symm

theorem isBlank_bind_sent (value : Option Json) : isBlank (value.bind sent) = isBlank value := by
  cases value with
  | none => rfl
  | some value => cases value <;> rfl

/-- **The missing identifiers**, read off the body. -/
theorem missing_of_decode (h : decode body = .ok envelope) : envelope.missing = blankNames body :=
  List.filter_congr fun name hname => by
    rw [field_of_decode h (mem_identifierNames hname), isBlank_bind_sent]

/-- An identifier of a complete envelope is what was received. -/
theorem exists_received_of_complete (h : decode body = .ok envelope)
    (hcomplete : blankNames body = []) (hname : name ∈ requiredNames) :
    ∃ value, received body name = some value ∧ envelope.field name = some value := by
  have hblank : ¬ isBlank (received body name) := by
    simpa using List.filter_eq_nil_iff.mp hcomplete name hname
  rw [field_of_decode h (mem_identifierNames hname)]
  cases hreceived : received body name with
  | none =>
    rw [hreceived] at hblank
    exact absurd rfl hblank
  | some value =>
    rw [hreceived] at hblank
    cases value <;> first | exact ⟨_, rfl, rfl⟩ | exact absurd rfl hblank

end Envelope

end HeatPlacement
