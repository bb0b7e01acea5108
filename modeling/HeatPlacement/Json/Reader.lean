import HeatPlacement.Json.Numeral
import HeatPlacement.Text.Hex

/-!
# Reading JSON texts

A text is read one character at a time: `Reader` is where the reading stands, `Reader.step` takes
a character, `Json.read?` runs over the whole text. Reading is strict: no trailing comma, no
comment, no control character in a string, no lone surrogate, nothing after the value, and no more
open brackets than the limit says.

* `Reader.Phase`: what may come next
* `Reader.Frame`: an array or object that is still open
* `Json.read?`: the value of a text
-/

namespace HeatPlacement

/-- The most brackets that may be open at once in the texts that the program reads. -/
def Json.depthLimit : Nat := 127

namespace Json.Reader

/-- An open array or object with what it holds so far. -/
inductive Frame where
  /-- The items in reverse order. -/
  | items (done : List Json)
  /-- The members, and the name whose value is being read. -/
  | members (done : Fields Json) (name : String)
  deriving Repr, Inhabited

/-- The part of a number that is being read. -/
inductive Part where
  | minus
  | zero
  | whole
  | point
  | fraction
  | exponent
  | exponentSign
  | exponentDigits
  deriving DecidableEq, Repr, Inhabited

/-- Where a string is. -/
inductive Mark where
  /-- Between two characters. -/
  | plain
  /-- After a backslash. -/
  | escape
  /-- After `\u` and some of its four digits. -/
  | code (digits value : Nat)
  /-- After the first half of a surrogate pair. -/
  | pair (high : Nat)
  /-- After that half and a backslash. -/
  | pairEscape (high : Nat)
  /-- In the second half. -/
  | pairCode (high digits value : Nat)
  deriving DecidableEq, Repr, Inhabited

/-- What may come next. -/
inductive Phase where
  /-- A value, or a closing bracket right after the opening one. -/
  | value (first : Bool)
  /-- A name, or a closing brace right after the opening one. -/
  | name (first : Bool)
  /-- The colon after a name. -/
  | colon (name : String)
  /-- A comma or a closing bracket. -/
  | after
  /-- The next letter of a literal, the letters after it, and what the literal stands for. -/
  | word (next : Char) (left : List Char) (value : Json)
  /-- A number; its digits are kept in reverse order. -/
  | number (part : Part) (numeral : Numeral)
  /-- A string, in reverse order. -/
  | string (isName : Bool) (mark : Mark) (done : List Char)
  /-- The whole value has been read. -/
  | done (value : Json)
  deriving Repr, Inhabited

/-- A reading under way: the open brackets, innermost first, and the phase. -/
structure State where
  frames : List Frame
  phase : Phase
  deriving Repr, Inhabited

/-- Blanks between tokens. -/
def isBlank (c : Char) : Bool := c == ' ' || c == '\t' || c == '\n' || c == '\r'

/-- Decimal digits. -/
def isDigit (c : Char) : Bool := '0' ≤ c && c ≤ '9'

/-- A value is complete: it goes into the innermost open bracket. -/
def deliver (frames : List Frame) (value : Json) : State :=
  match frames with
  | [] => ⟨[], .done value⟩
  | .items done :: outer => ⟨.items (value :: done) :: outer, .after⟩
  | .members done name :: outer => ⟨.members (Fields.insert done name value) "" :: outer, .after⟩

/-- Open a bracket, unless too many are open. -/
def openFrame (limit : Nat) (frames : List Frame) (frame : Frame) (phase : Phase) : Option State :=
  if frames.length < limit then some ⟨frame :: frames, phase⟩ else none

/-- The number with its digits in order. -/
def finish (numeral : Numeral) : Option Number :=
  Numeral.number?
    { numeral with
      whole := numeral.whole.reverse
      fraction := numeral.fraction.reverse
      exponent := numeral.exponent.map fun (sign, digits) => (sign, digits.reverse) }

/-- Whether a number may end in this part. -/
def Part.canEnd : Part → Bool
  | .zero | .whole | .fraction | .exponentDigits => true
  | _ => false

/-- The first character of a value. -/
def begin (limit : Nat) (frames : List Frame) (c : Char) : Option State :=
  match c with
  | '\x7b' => openFrame limit frames (.members [] "") (.name true)
  | '[' => openFrame limit frames (.items []) (.value true)
  | '"' => some ⟨frames, .string false .plain []⟩
  | 'n' => some ⟨frames, .word 'u' ['l', 'l'] .null⟩
  | 't' => some ⟨frames, .word 'r' ['u', 'e'] (.bool true)⟩
  | 'f' => some ⟨frames, .word 'a' ['l', 's', 'e'] (.bool false)⟩
  | '-' => some ⟨frames, .number .minus ⟨true, [], [], none⟩⟩
  | '0' => some ⟨frames, .number .zero ⟨false, ['0'], [], none⟩⟩
  | c => if isDigit c then some ⟨frames, .number .whole ⟨false, [c], [], none⟩⟩ else none

/-- A comma, a closing bracket or a blank after a value. -/
def follow (frames : List Frame) (c : Char) : Option State :=
  if isBlank c then some ⟨frames, .after⟩
  else
    match frames, c with
    | .items done :: outer, ',' => some ⟨.items done :: outer, .value false⟩
    | .items done :: outer, ']' => some (deliver outer (.arr done.reverse))
    | .members done _ :: outer, ',' => some ⟨.members done "" :: outer, .name false⟩
    | .members done _ :: outer, '\x7d' => some (deliver outer (.obj done))
    | _, _ => none

/-- A character after a complete value, at the top or inside a bracket. -/
def afterValue (state : State) (c : Char) : Option State :=
  match state.phase with
  | .done _ => if isBlank c then some state else none
  | _ => follow state.frames c

/-- The next part of a number, or none when the number has ended. -/
def grow (part : Part) (numeral : Numeral) (c : Char) : Option (Part × Numeral) :=
  if isDigit c then
    match part with
    | .minus =>
      some (if c = '0' then .zero else .whole, { numeral with whole := [c] })
    | .whole => some (.whole, { numeral with whole := c :: numeral.whole })
    | .point | .fraction => some (.fraction, { numeral with fraction := c :: numeral.fraction })
    | .exponent | .exponentSign | .exponentDigits =>
      let (sign, digits) := numeral.exponent.getD (false, [])
      some (.exponentDigits, { numeral with exponent := some (sign, c :: digits) })
    | .zero => none
  else if c = '.' then
    match part with
    | .zero | .whole => some (.point, numeral)
    | _ => none
  else if c = 'e' ∨ c = 'E' then
    match part with
    | .zero | .whole | .fraction => some (.exponent, numeral)
    | _ => none
  else if c = '+' ∨ c = '-' then
    match part with
    | .exponent => some (.exponentSign, { numeral with exponent := some (c = '-', []) })
    | _ => none
  else none

/-- The character that a letter after a backslash stands for. -/
def unescape? (c : Char) : Option Char :=
  match c with
  | '"' => some '"'
  | '\\' => some '\\'
  | '/' => some '/'
  | 'b' => some '\x08'
  | 'f' => some '\x0c'
  | 'n' => some '\n'
  | 'r' => some '\r'
  | 't' => some '\t'
  | _ => none

/-- Whether a code unit is the first half of a surrogate pair. -/
def isHigh (value : Nat) : Bool := 0xD800 ≤ value && value < 0xDC00

/-- Whether a code unit is the second half of a surrogate pair. -/
def isLow (value : Nat) : Bool := 0xDC00 ≤ value && value < 0xE000

/-- The next mark inside a string, and the characters so far in reverse order. The closing quote
is not for this function. -/
def growString (mark : Mark) (done : List Char) (c : Char) : Option (Mark × List Char) :=
  match mark with
  | .plain => if c = '\\' then some (.escape, done)
    else if c.toNat < 32 then none
    else some (.plain, c :: done)
  | .escape => if c = 'u' then some (.code 0 0, done)
    else (unescape? c).map fun d => (.plain, d :: done)
  | .code digits value =>
    (Text.hexValue? c).bind fun d =>
      let value := 16 * value + d
      if digits < 3 then some (.code (digits + 1) value, done)
      else if isHigh value then some (.pair value, done)
      else if isLow value then none
      else some (.plain, Char.ofNat value :: done)
  | .pair high => if c = '\\' then some (.pairEscape high, done) else none
  | .pairEscape high => if c = 'u' then some (.pairCode high 0 0, done) else none
  | .pairCode high digits value =>
    (Text.hexValue? c).bind fun d =>
      let value := 16 * value + d
      if digits < 3 then some (.pairCode high (digits + 1) value, done)
      else if isLow value then
        some (.plain, Char.ofNat (0x10000 + 0x400 * (high - 0xD800) + (value - 0xDC00)) :: done)
      else none

/-- Take one character. -/
def step (limit : Nat) (state : State) (c : Char) : Option State :=
  match state.phase with
  | .value first =>
    if isBlank c then some state
    else
      match first, c, state.frames with
      | true, ']', .items done :: outer => some (deliver outer (.arr done.reverse))
      | _, _, frames => begin limit frames c
  | .name first =>
    if isBlank c then some state
    else
      match first, c, state.frames with
      | true, '\x7d', .members done _ :: outer => some (deliver outer (.obj done))
      | _, '"', frames => some ⟨frames, .string true .plain []⟩
      | _, _, _ => none
  | .colon name =>
    if isBlank c then some state
    else
      match c, state.frames with
      | ':', .members done _ :: outer => some ⟨.members done name :: outer, .value false⟩
      | _, _ => none
  | .after => follow state.frames c
  | .word next left value =>
    if c ≠ next then none
    else
      match left with
      | [] => some (deliver state.frames value)
      | d :: more => some ⟨state.frames, .word d more value⟩
  | .number part numeral =>
    match grow part numeral c with
    | some (part, numeral) => some ⟨state.frames, .number part numeral⟩
    | none =>
      -- Only the character behind a number shows that it has ended.
      if part.canEnd then
        (finish numeral).bind fun n => afterValue (deliver state.frames (.num n)) c
      else none
  | .string isName .plain done =>
    if c = '"' then
      let s := String.ofList done.reverse
      some (if isName then ⟨state.frames, .colon s⟩ else deliver state.frames (.str s))
    else
      (growString .plain done c).map fun (mark, done) => ⟨state.frames, .string isName mark done⟩
  | .string isName mark done =>
    (growString mark done c).map fun (mark, done) => ⟨state.frames, .string isName mark done⟩
  | .done value => if isBlank c then some ⟨state.frames, .done value⟩ else none

/-- Take the characters in order. -/
def run (limit : Nat) : State → List Char → Option State
  | state, [] => some state
  | state, c :: rest =>
    match step limit state c with
    | some next => run limit next rest
    | none => none

@[simp] theorem run_nil (limit : Nat) (state : State) : run limit state [] = some state := rfl

theorem run_cons (limit : Nat) (state : State) (c : Char) (rest : List Char) :
    run limit state (c :: rest) = (step limit state c).bind fun next => run limit next rest := by
  rw [run]
  cases step limit state c <;> rfl

/-- The value at the end of the text. -/
def result? (state : State) : Option Json :=
  match state.frames, state.phase with
  | _, .done value => some value
  | [], .number part numeral => if part.canEnd then (finish numeral).map .num else none
  | _, _ => none

/-- Before the first character. -/
def start : State := ⟨[], .value false⟩

end Json.Reader

namespace Json

/-- The value of a text with at most `limit` brackets open at once. -/
def readWithin? (limit : Nat) (text : String) : Option Json :=
  (Reader.run limit Reader.start text.toList).bind Reader.result?

/-- The value of a text. -/
def read? (text : String) : Option Json := readWithin? depthLimit text

end Json

example : Json.read? "[1, \x7b\"a\": -0.5e1\x7d]" =
    some (.arr [.num (.int 1),
      .obj [("a", .num (.double ⟨true, 5629499534213120, -50⟩))]]) := by decide +kernel
example : Json.read? "[1,]" = none := by decide +kernel
example : Json.read? "\"\\ud83d\\ude00\"" = some (.str "😀") := by decide +kernel
example : Json.read? "01" = none := by decide +kernel

end HeatPlacement
