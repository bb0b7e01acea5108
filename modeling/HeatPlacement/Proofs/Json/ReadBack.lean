import HeatPlacement.Json.Printer
import HeatPlacement.Json.Reader
import HeatPlacement.Proofs.Fields
import HeatPlacement.Proofs.Text.Numerals

/-!
# Texts that are read back

The reader undoes the printer. A value that was read or built holds no name twice in an object; when
its numbers are integers and no more brackets are open at once than the reader admits, its text is
read as that same value.

* `Json.plain`: the values in question, with so much room for open brackets
* `Json.Reader.outcome`: the value at which a reading arrives by the rest of a text
* `Json.Reader.outcome_renderChars`, `Json.Reader.outcome_renderNumber`: strings and numbers
* `Json.Reader.outcome_render`: **a printed value is delivered** wherever a value may stand
* `Json.read?_text`: what is read from the text of a value
-/

namespace HeatPlacement

/-! ### Plain values -/

/-- An integer of the 64-bit ranges. -/
def Number.plain : Number → Bool
  | .int n => -(Nat.pow 2 63 : Int) ≤ n && n < (Nat.pow 2 64 : Int)
  | .double _ => false

namespace Json

mutual

/-- A value whose numbers are integers and whose objects hold no name twice, with no more than
`room` brackets open at once. -/
def plain : Json → Nat → Bool
  | .null, _ | .bool _, _ | .str _, _ => true
  | .num n, _ => n.plain
  | .arr _, 0 | .obj _, 0 => false
  | .arr items, room + 1 => plainItems items room
  | .obj fields, room + 1 => decide (Fields.names fields).Nodup && plainFields fields room
termination_by structural value => value

/-- Items that are plain. -/
def plainItems : List Json → Nat → Bool
  | [], _ => true
  | item :: more, room => plain item room && plainItems more room
termination_by structural items => items

/-- Members whose values are plain. -/
def plainFields : List (String × Json) → Nat → Bool
  | [], _ => true
  | field :: more, room => plainField field room && plainFields more room
termination_by structural fields => fields

/-- A member whose value is plain. -/
def plainField : String × Json → Nat → Bool
  | (_, value), room => plain value room
termination_by structural field => field

end

namespace Reader

/-! ### The end of a reading -/

/-- The value at which a reading arrives by the rest of a text. -/
def outcome (limit : Nat) (state : State) (text : List Char) : Option Json :=
  (run limit state text).bind result?

variable {limit : Nat} {frames : List Frame} {state : State}

theorem outcome_cons (c : Char) (rest : List Char) :
    outcome limit state (c :: rest) =
      (step limit state c).bind fun next => outcome limit next rest := by
  rw [outcome, run_cons, Option.bind_assoc]
  rfl

/-- One character that can be taken. -/
theorem outcome_of_step {c : Char} {next : State} (h : step limit state c = some next)
    (rest : List Char) : outcome limit state (c :: rest) = outcome limit next rest := by
  rw [outcome_cons, h, Option.bind_some]

/-- Where a value may stand, anything but a blank or a closing bracket begins one. -/
theorem step_value {first : Bool} {c : Char} (hblank : isBlank c = false) (hclose : c ≠ ']') :
    step limit ⟨frames, .value first⟩ c = begin limit frames c := by
  simp only [step, hblank, Bool.false_eq_true, if_false]
  split
  · exact absurd rfl hclose
  · rfl

/-! ### Strings -/

/-- A character that needs no escape is read as itself. -/
theorem step_string {isName : Bool} {done : List Char} {c : Char} (hquote : c ≠ '"')
    (hbackslash : c ≠ '\\') (hcontrol : ¬c.toNat < 32) :
    step limit ⟨frames, .string isName .plain done⟩ c =
      some ⟨frames, .string isName .plain (c :: done)⟩ := by
  simp [step, growString, hquote, hbackslash, hcontrol]

/-- A digit of an escape, of which `digits` have been read. -/
theorem step_code {isName : Bool} {done : List Char} {digits value d : Nat} {c : Char}
    (h : Text.hexValue? c = some d) (hdigits : digits < 3) :
    step limit ⟨frames, .string isName (.code digits value) done⟩ c =
      some ⟨frames, .string isName (.code (digits + 1) (16 * value + d)) done⟩ := by
  simp [step, growString, h, hdigits]

/-- The last digit of an escape below the surrogates. -/
theorem step_code_last {isName : Bool} {done : List Char} {value d : Nat} {c : Char}
    (h : Text.hexValue? c = some d) (hvalue : 16 * value + d < 0xD800) :
    step limit ⟨frames, .string isName (.code 3 value) done⟩ c =
      some ⟨frames, .string isName .plain (Char.ofNat (16 * value + d) :: done)⟩ := by
  have hhigh : isHigh (16 * value + d) = false := by simp [isHigh]; omega
  have hlow : isLow (16 * value + d) = false := by simp [isLow]; omega
  simp [step, growString, h, hhigh, hlow]

/-- An escaped character is read as itself. -/
theorem outcome_escapeChar (isName : Bool) (done : List Char) (c : Char) (rest : List Char) :
    outcome limit ⟨frames, .string isName .plain done⟩ (escapeChar c ++ rest) =
      outcome limit ⟨frames, .string isName .plain (c :: done)⟩ rest := by
  unfold escapeChar
  split
  case h_8 hquote hbackslash _ _ _ _ _ =>
    split
    case isTrue hcontrol =>
      -- The escape, `u`, and four hexadecimal digits, the first two of them zeros.
      have hzero : Text.hexValue? '0' = some 0 := by decide
      have hhigh := Text.hexValue?_lowerHex (show c.toNat / 16 < 16 by omega)
      have hlow := Text.hexValue?_lowerHex (show c.toNat % 16 < 16 by omega)
      have hvalue : 16 * (c.toNat / 16) + c.toNat % 16 = c.toNat := Nat.div_add_mod _ _
      calc outcome limit ⟨frames, .string isName .plain done⟩ _
          = outcome limit ⟨frames, .string isName (.code 0 0) done⟩
              ('0' :: '0' :: Text.lowerHex (c.toNat / 16) ::
                Text.lowerHex (c.toNat % 16) :: rest) := rfl
        _ = outcome limit ⟨frames, .string isName (.code 3 (c.toNat / 16)) done⟩
              (Text.lowerHex (c.toNat % 16) :: rest) := by
            rw [outcome_of_step (step_code hzero (by decide)),
              outcome_of_step (step_code hzero (by decide)),
              outcome_of_step (step_code hhigh (by decide))]
            simp only [Nat.mul_zero, Nat.add_zero, Nat.zero_add, Nat.reduceAdd]
        _ = outcome limit ⟨frames, .string isName .plain (c :: done)⟩ rest := by
            rw [outcome_of_step (step_code_last hlow (by omega)), hvalue, Char.ofNat_toNat]
    case isFalse hcontrol => exact outcome_of_step (step_string hquote hbackslash hcontrol) rest
  all_goals rfl

/-- The characters of a string are read up to the closing quote. -/
theorem outcome_renderChars (isName : Bool) (chars done rest : List Char) :
    outcome limit ⟨frames, .string isName .plain done⟩ (renderChars chars rest) =
      outcome limit (if isName then ⟨frames, .colon (String.ofList (done.reverse ++ chars))⟩
        else deliver frames (.str (String.ofList (done.reverse ++ chars)))) rest := by
  induction chars generalizing done with
  | nil =>
    rw [List.append_nil]
    exact outcome_of_step rfl rest
  | cons c more ih =>
    rw [renderChars, outcome_escapeChar, ih, List.reverse_cons, List.append_assoc,
      List.singleton_append]

/-! ### Numbers -/

/-- What may stand behind a value in the texts of the printer: nothing, a comma or a closing
bracket. -/
def Ends (rest : List Char) : Prop := ∀ c ∈ rest.head?, c = ',' ∨ c = ']' ∨ c = '\x7d'

theorem isDigit_of_mem_natText {n : Nat} {c : Char} (h : c ∈ Decimal.natText n) :
    isDigit c = true :=
  Text.isDigit_of_mem_toDigits h

/-- A positive number is written without leading zeros. -/
theorem exists_natText_eq_cons {n : Nat} (h : 0 < n) :
    ∃ c digits, Decimal.natText n = c :: digits ∧ c ≠ '0' :=
  Text.exists_toDigits_eq_cons h

@[simp] theorem digitsValue_natText (n : Nat) : digitsValue (Decimal.natText n) = n :=
  digitsValue_toDigits n

theorem isBlank_of_isDigit {c : Char} (h : isDigit c = true) : isBlank c = false := by
  refine Bool.eq_false_iff.mpr fun hblank => ?_
  simp only [isBlank, Bool.or_eq_true, beq_iff_eq] at hblank
  rcases hblank with ((rfl | rfl) | rfl) | rfl <;> cases h

/-- A digit other than zero begins a number. -/
theorem begin_digit {c : Char} (hdigit : isDigit c = true) (hzero : c ≠ '0') :
    begin limit frames c = some ⟨frames, .number .whole ⟨false, [c], [], none⟩⟩ := by
  unfold begin
  split
  case h_9 => rw [if_pos hdigit]
  case h_8 => exact absurd rfl hzero
  all_goals exact absurd hdigit (by decide)

/-- The whole digits of a number are gathered. -/
theorem outcome_digits {digits : List Char} (h : ∀ c ∈ digits, isDigit c = true)
    (negative : Bool) (done rest : List Char) :
    outcome limit ⟨frames, .number .whole ⟨negative, done, [], none⟩⟩ (digits ++ rest) =
      outcome limit ⟨frames, .number .whole ⟨negative, digits.reverse ++ done, [], none⟩⟩ rest := by
  induction digits generalizing done with
  | nil => rfl
  | cons c more ih =>
    have hc : isDigit c = true := h c List.mem_cons_self
    have hstep : step limit ⟨frames, .number .whole ⟨negative, done, [], none⟩⟩ c =
        some ⟨frames, .number .whole ⟨negative, c :: done, [], none⟩⟩ := by simp [step, grow, hc]
    rw [List.cons_append, outcome_of_step hstep, ih fun d hd => h d (List.mem_cons_of_mem c hd),
      List.reverse_cons, List.append_assoc, List.singleton_append]

/-- After a value that is complete, a character is taken as from the state it leaves. -/
theorem afterValue_deliver (value : Json) (c : Char) :
    afterValue (deliver frames value) c = step limit (deliver frames value) c := by
  rcases frames with _ | ⟨_ | _, outer⟩ <;> rfl

/-- **The end of a number.** It is delivered by whatever stands behind it. -/
theorem outcome_number {part : Part} {numeral : Numeral} {n : Number} {rest : List Char}
    (hend : part.canEnd = true) (hn : finish numeral = some n) (hrest : Ends rest) :
    outcome limit ⟨frames, .number part numeral⟩ rest =
      outcome limit (deliver frames (.num n)) rest := by
  cases rest with
  | nil =>
    -- At the end of the text a number is the value outside all brackets, and nothing is inside one.
    rcases frames with _ | ⟨_ | _, outer⟩
    · simp [outcome, result?, deliver, hend, hn]
    · rfl
    · rfl
  | cons c more =>
    have hgrow : grow part numeral c = none := by
      rcases hrest c rfl with rfl | rfl | rfl <;> rfl
    have hstep : step limit ⟨frames, .number part numeral⟩ c =
        afterValue (deliver frames (.num n)) c := by
      simp only [step, hgrow]
      rw [if_pos hend, hn, Option.bind_some]
    rw [outcome_cons, outcome_cons, hstep, ← afterValue_deliver]

/-- The digits after the first one, up to the end of the number. -/
theorem outcome_moreDigits {negative : Bool} {m : Nat} {c : Char} {digits rest : List Char}
    {n : Number} (hdigits : Decimal.natText m = c :: digits)
    (hn : Numeral.number? ⟨negative, Decimal.natText m, [], none⟩ = some n) (hrest : Ends rest) :
    outcome limit ⟨frames, .number .whole ⟨negative, [c], [], none⟩⟩ (digits ++ rest) =
      outcome limit (deliver frames (.num n)) rest := by
  have hall : ∀ d ∈ digits, isDigit d = true := fun d hd =>
    isDigit_of_mem_natText (hdigits ▸ List.mem_cons_of_mem c hd)
  have hfinish : finish ⟨negative, digits.reverse ++ [c], [], none⟩ = some n := by
    simpa [finish, hdigits] using hn
  rw [outcome_digits hall, outcome_number rfl hfinish hrest]

theorem number?_natText {n : Nat} (h : n < Nat.pow 2 64) :
    Numeral.number? ⟨false, Decimal.natText n, [], none⟩ = some (.int n) := by
  simp [Numeral.number?, h]

theorem number?_natText_negative {n : Nat} (h : n + 1 ≤ Nat.pow 2 63) :
    Numeral.number? ⟨true, Decimal.natText (n + 1), [], none⟩ = some (.int (.negSucc n)) := by
  simp [Numeral.number?, h, Int.negSucc_eq]

/-- A natural number is read up to what stands behind it. -/
theorem outcome_natural {n : Nat} (h : n < Nat.pow 2 64) (first : Bool) {rest : List Char}
    (hrest : Ends rest) :
    outcome limit ⟨frames, .value first⟩ (Decimal.natText n ++ rest) =
      outcome limit (deliver frames (.num (.int n))) rest := by
  rcases Nat.eq_zero_or_pos n with rfl | hpos
  · -- Zero is the one number whose first digit nothing may follow.
    have hstep : step limit ⟨frames, .value first⟩ '0' =
        some ⟨frames, .number .zero ⟨false, ['0'], [], none⟩⟩ := step_value rfl (by decide)
    exact (outcome_of_step hstep rest).trans (outcome_number rfl (number?_natText h) hrest)
  · obtain ⟨c, digits, hdigits, hzero⟩ := exists_natText_eq_cons hpos
    have hdigit : isDigit c = true := isDigit_of_mem_natText (hdigits ▸ List.mem_cons_self)
    have hstep : step limit ⟨frames, .value first⟩ c =
        some ⟨frames, .number .whole ⟨false, [c], [], none⟩⟩ := by
      rw [step_value (isBlank_of_isDigit hdigit) (by rintro rfl; cases hdigit),
        begin_digit hdigit hzero]
    rw [hdigits, List.cons_append, outcome_of_step hstep,
      outcome_moreDigits hdigits (number?_natText h) hrest]

/-- A negative number is read up to what stands behind it. -/
theorem outcome_negative {n : Nat} (h : n + 1 ≤ Nat.pow 2 63) (first : Bool) {rest : List Char}
    (hrest : Ends rest) :
    outcome limit ⟨frames, .value first⟩ ('-' :: Decimal.natText (n + 1) ++ rest) =
      outcome limit (deliver frames (.num (.int (.negSucc n)))) rest := by
  obtain ⟨c, digits, hdigits, hzero⟩ := exists_natText_eq_cons (Nat.succ_pos n)
  have hdigit : isDigit c = true := isDigit_of_mem_natText (hdigits ▸ List.mem_cons_self)
  have hminus : step limit ⟨frames, .value first⟩ '-' =
      some ⟨frames, .number .minus ⟨true, [], [], none⟩⟩ := step_value rfl (by decide)
  have hstep : step limit ⟨frames, .number .minus ⟨true, [], [], none⟩⟩ c =
      some ⟨frames, .number .whole ⟨true, [c], [], none⟩⟩ := by
    simp [step, grow, hdigit, hzero]
  rw [hdigits, List.cons_append, List.cons_append, outcome_of_step hminus, outcome_of_step hstep,
    outcome_moreDigits hdigits (number?_natText_negative h) hrest]

/-- An integer is read up to what stands behind it. -/
theorem outcome_renderNumber {n : Number} (h : n.plain = true) (first : Bool) {rest : List Char}
    (hrest : Ends rest) :
    outcome limit ⟨frames, .value first⟩ (renderNumber n ++ rest) =
      outcome limit (deliver frames (.num n)) rest := by
  cases n with
  | double x => cases h
  | int n =>
    simp only [Number.plain, Bool.and_eq_true, decide_eq_true_eq] at h
    obtain ⟨hleast, hgreatest⟩ := h
    cases n with
    | ofNat n => exact outcome_natural (Int.ofNat_lt.mp hgreatest) first hrest
    | negSucc n => exact outcome_negative (by omega) first hrest

/-! ### Values -/

theorem ends_renderItems (items : List Json) (rest : List Char) :
    Ends (renderItems items rest) := by
  cases items <;> simp [renderItems, Ends]

theorem ends_renderFields (fields : Fields Json) (rest : List Char) :
    Ends (renderFields fields rest) := by
  cases fields <;> simp [renderFields, Ends]

/-- An opening bracket, with room for it. -/
theorem step_bracket {first : Bool} (h : frames.length < limit) :
    step limit ⟨frames, .value first⟩ '[' = some ⟨.items [] :: frames, .value true⟩ := by
  rw [step_value rfl (by decide)]
  exact if_pos h

/-- An opening brace, with room for it. -/
theorem step_brace {first : Bool} (h : frames.length < limit) :
    step limit ⟨frames, .value first⟩ '\x7b' = some ⟨.members [] "" :: frames, .name true⟩ := by
  rw [step_value rfl (by decide)]
  exact if_pos h

/-- A name and its colon are read up to the value. -/
theorem outcome_renderString_name (done : Fields Json) (old name : String) (outer : List Frame)
    (first : Bool) (rest : List Char) :
    outcome limit ⟨.members done old :: outer, .name first⟩ (renderString name (':' :: rest)) =
      outcome limit ⟨.members done name :: outer, .value false⟩ rest := by
  have hquote : step limit ⟨.members done old :: outer, .name first⟩ '"' =
      some ⟨.members done old :: outer, .string true .plain []⟩ := by cases first <;> rfl
  rw [renderString, outcome_of_step hquote, outcome_renderChars, if_pos rfl, List.reverse_nil,
    List.nil_append, String.ofList_toList]
  exact outcome_of_step rfl rest

-- The induction is along the value. The rest of the text is arbitrary but for its first character,
-- which has to end a number.
mutual

/-- **A printed value is delivered** wherever a value may stand and there is room for its
brackets. -/
theorem outcome_render : ∀ (value : Json) {room : Nat} {frames : List Frame} (first : Bool)
    {rest : List Char}, value.plain room = true → frames.length + room ≤ limit → Ends rest →
    outcome limit ⟨frames, .value first⟩ (render value rest) =
      outcome limit (deliver frames value) rest
  | .null, _, frames, first, rest, _, _, _ => by
    have hstep : step limit ⟨frames, .value first⟩ 'n' =
        some ⟨frames, .word 'u' ['l', 'l'] .null⟩ := step_value rfl (by decide)
    rw [render, outcome_of_step hstep]
    rfl
  | .bool true, _, frames, first, rest, _, _, _ => by
    have hstep : step limit ⟨frames, .value first⟩ 't' =
        some ⟨frames, .word 'r' ['u', 'e'] (.bool true)⟩ := step_value rfl (by decide)
    rw [render, outcome_of_step hstep]
    rfl
  | .bool false, _, frames, first, rest, _, _, _ => by
    have hstep : step limit ⟨frames, .value first⟩ 'f' =
        some ⟨frames, .word 'a' ['l', 's', 'e'] (.bool false)⟩ := step_value rfl (by decide)
    rw [render, outcome_of_step hstep]
    rfl
  | .num n, _, _, first, _, hplain, _, hrest => by
    rw [render]
    exact outcome_renderNumber hplain first hrest
  | .str s, _, frames, first, rest, _, _, _ => by
    have hstep : step limit ⟨frames, .value first⟩ '"' =
        some ⟨frames, .string false .plain []⟩ := step_value rfl (by decide)
    rw [render, renderString, outcome_of_step hstep, outcome_renderChars]
    simp
  | .arr _, 0, _, _, _, hplain, _, _ | .obj _, 0, _, _, _, hplain, _, _ => by cases hplain
  | .arr [], room + 1, frames, first, rest, _, hroom, _ => by
    rw [render, outcome_of_step (step_bracket (by omega))]
    exact outcome_of_step rfl rest
  | .arr (item :: more), room + 1, frames, first, rest, hplain, hroom, _ => by
    rw [plain, plainItems, Bool.and_eq_true] at hplain
    rw [render, outcome_of_step (step_bracket (by omega)),
      outcome_render item true hplain.1 (by simp; omega) (ends_renderItems more rest)]
    exact outcome_renderItems more [item] hplain.2 (by omega)
  | .obj [], room + 1, frames, first, rest, _, hroom, _ => by
    rw [render, outcome_of_step (step_brace (by omega))]
    exact outcome_of_step rfl rest
  | .obj (field :: more), room + 1, frames, first, rest, hplain, hroom, _ => by
    -- The first member has no comma in front, so it is read before the loop over the others.
    rw [plain, plainFields, Bool.and_eq_true, Bool.and_eq_true, decide_eq_true_eq] at hplain
    obtain ⟨hnames, hfield, hmore⟩ := hplain
    rw [render, outcome_of_step (step_brace (by omega)),
      outcome_renderField field [] "" true hfield (by omega) (by simp)
        (ends_renderFields more rest)]
    exact outcome_renderFields more [field] "" hmore (by omega) hnames

/-- The items after the first ones, up to the closing bracket. -/
theorem outcome_renderItems : ∀ (items : List Json) (done : List Json) {room : Nat}
    {outer : List Frame} {rest : List Char}, plainItems items room = true →
    outer.length + 1 + room ≤ limit →
    outcome limit ⟨.items done :: outer, .after⟩ (renderItems items rest) =
      outcome limit (deliver outer (.arr (done.reverse ++ items))) rest
  | [], done, _, outer, rest, _, _ => by
    rw [renderItems, List.append_nil]
    exact outcome_of_step rfl rest
  | item :: more, done, room, outer, rest, hplain, hroom => by
    rw [plainItems, Bool.and_eq_true] at hplain
    have hcomma : step limit ⟨.items done :: outer, .after⟩ ',' =
        some ⟨.items done :: outer, .value false⟩ := rfl
    rw [renderItems, outcome_of_step hcomma,
      outcome_render item false hplain.1 (by simp; omega) (ends_renderItems more rest), deliver,
      outcome_renderItems more (item :: done) hplain.2 hroom, List.reverse_cons, List.append_assoc,
      List.singleton_append]

/-- The members after the first ones, up to the closing brace. -/
theorem outcome_renderFields : ∀ (fields : List (String × Json)) (done : Fields Json)
    (old : String) {room : Nat} {outer : List Frame} {rest : List Char},
    plainFields fields room = true → outer.length + 1 + room ≤ limit →
    (Fields.names (done ++ fields)).Nodup →
    outcome limit ⟨.members done old :: outer, .after⟩ (renderFields fields rest) =
      outcome limit (deliver outer (.obj (done ++ fields))) rest
  | [], done, old, _, outer, rest, _, _, _ => by
    rw [renderFields, List.append_nil]
    exact outcome_of_step rfl rest
  | field :: more, done, old, room, outer, rest, hplain, hroom, hnames => by
    rw [plainFields, Bool.and_eq_true] at hplain
    have hcomma : step limit ⟨.members done old :: outer, .after⟩ ',' =
        some ⟨.members done "" :: outer, .name false⟩ := rfl
    -- A name that is new is bound last, so the members keep their order.
    have hfresh : field.1 ∉ Fields.names done := by
      rw [Fields.names_append, Fields.names_cons, List.nodup_middle, List.nodup_cons] at hnames
      exact fun hmem => hnames.1 (List.mem_append_left _ hmem)
    have hassoc : done ++ field :: more = done ++ [field] ++ more := by simp
    rw [renderFields, outcome_of_step hcomma,
      outcome_renderField field done "" false hplain.1 hroom hfresh (ends_renderFields more rest),
      hassoc]
    exact outcome_renderFields more (done ++ [field]) "" hplain.2 hroom (hassoc ▸ hnames)

/-- A member with a new name. -/
theorem outcome_renderField : ∀ (field : String × Json) (done : Fields Json) (old : String)
    (first : Bool) {room : Nat} {outer : List Frame} {rest : List Char},
    plainField field room = true → outer.length + 1 + room ≤ limit →
    field.1 ∉ Fields.names done → Ends rest →
    outcome limit ⟨.members done old :: outer, .name first⟩ (renderField field rest) =
      outcome limit ⟨.members (done ++ [field]) "" :: outer, .after⟩ rest
  | (name, value), done, old, first, room, outer, rest, hplain, hroom, hfresh, hrest => by
    rw [renderField, outcome_renderString_name,
      outcome_render value false hplain (by simp; omega) hrest, deliver,
      Fields.insert_of_not_mem hfresh]

end

end Reader

/-! ### Texts -/

/-- **The reader undoes the printer.** -/
theorem readWithin?_text {value : Json} {limit : Nat} (h : value.plain limit = true) :
    readWithin? limit value.text = some value := by
  have hroom : ([] : List Reader.Frame).length + limit ≤ limit := by simp
  have hends : Reader.Ends [] := by simp [Reader.Ends]
  rw [readWithin?, text, String.toList_ofList]
  exact Reader.outcome_render value false h hroom hends

/-- What is read from the text of a value is the value. -/
theorem read?_text {value : Json} (h : value.plain depthLimit = true) :
    read? value.text = some value :=
  readWithin?_text h

end Json

end HeatPlacement
