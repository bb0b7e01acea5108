import HeatPlacement.Text.Hex
import HeatPlacement.Text.Unsigned
import HeatPlacement.Toml.Value

/-!
# Words

Values without quotes and brackets: flags, integers, floats, dates and times.

* `Value.ofWord?`: the value of a word
-/

namespace HeatPlacement.Toml

/-- Whether a character may stand in a word. -/
def isWordChar (c : Char) : Bool :=
  Text.isDigit c || ('a' ≤ c && c ≤ 'z') || ('A' ≤ c && c ≤ 'Z') || "+-._:".toList.contains c

/-! ### Integers -/

/-- Digits without the underscores between them. An underscore stands between two digits. -/
def ungroup? (isDigit : Char → Bool) : (behindDigit : Bool) → List Char → Option (List Char)
  | behindDigit, [] => if behindDigit then some [] else none
  | behindDigit, c :: rest =>
    if isDigit c then (ungroup? isDigit true rest).map (c :: ·)
    else if c = '_' && behindDigit then ungroup? isDigit false rest
    else none

/-- Take a sign off a word. -/
def splitSign : List Char → Bool × List Char
  | '-' :: rest => (true, rest)
  | '+' :: rest => (false, rest)
  | word => (false, word)

/-- The digits of a whole number: no zero stands before others. -/
def wholeDigits? (word : List Char) : Option (List Char) :=
  match word with
  | '0' :: _ :: _ => none
  | _ => ungroup? Text.isDigit false word

/-- The value of digits of a base. -/
def valueIn (base : Nat) (digits : List Char) : Nat :=
  digits.foldl (fun value c => base * value + (Text.hexValue? c).getD 0) 0

/-- Whether a character is a digit of a base up to sixteen. -/
def isDigitOf (base : Nat) (c : Char) : Bool := (Text.hexValue? c).any (· < base)

/-- An integer of 64 bits. -/
def integer? (word : List Char) : Option Int :=
  let unsigned (base : Nat) (digits : List Char) : Option Int :=
    ((ungroup? (isDigitOf base) false digits).map (valueIn base)).bind fun value =>
      if value < Nat.pow 2 63 then some (value : Int) else none
  match word with
  | '0' :: 'x' :: digits => unsigned 16 digits
  | '0' :: 'o' :: digits => unsigned 8 digits
  | '0' :: 'b' :: digits => unsigned 2 digits
  | _ =>
    let (negative, digits) := splitSign word
    ((wholeDigits? digits).map digitsValue).bind fun value =>
      if negative then if value ≤ Nat.pow 2 63 then some (-(value : Int)) else none
      else if value < Nat.pow 2 63 then some (value : Int) else none

/-! ### Floats -/

/-- The value of an exponent: digits behind a sign. -/
def exponent? (text : List Char) : Option Int :=
  let (negative, digits) := splitSign text
  (ungroup? Text.isDigit false digits).map fun digits =>
    if negative then -(digitsValue digits : Int) else digitsValue digits

/-- The digits and the exponent of a float: a fraction, an exponent or both follow its whole
digits. -/
def floatParts? (word : List Char) : Option (List Char × Int) :=
  let isExponent (c : Char) : Bool := c == 'e' || c == 'E'
  let (whole, rest) := word.span fun c => c != '.' && !isExponent c
  (wholeDigits? whole).bind fun whole =>
    match rest with
    | '.' :: rest =>
      let (fraction, rest) := rest.span fun c => !isExponent c
      (ungroup? Text.isDigit false fraction).bind fun fraction =>
        let digits := whole ++ fraction
        match rest with
        | _ :: text => (exponent? text).map fun e => (digits, e - (fraction.length : Int))
        | [] => some (digits, -(fraction.length : Int))
    | _ :: text => (exponent? text).map fun e => (whole, e)
    | [] => none

/-- Whether a word is a float. A positive one that is too great for a double is none. -/
def isFloat (word : List Char) : Bool :=
  let (negative, body) := splitSign word
  if body == "inf".toList || body == "nan".toList then true
  else
    match floatParts? body with
    | some (digits, exponent) =>
      negative || (Double.ofDecimal? false (digitsValue digits) exponent).isSome
    | none => false

/-! ### Dates and times -/

/-- A number of so many digits within bounds, and what follows it. -/
def numberWithin? (count low high : Nat) (text : List Char) : Option (Nat × List Char) :=
  let digits := text.take count
  if digits.length = count && digits.all Text.isDigit && low ≤ digitsValue digits &&
      digitsValue digits ≤ high then some (digitsValue digits, text.drop count)
  else none

/-- Take a character off a text. -/
def after? (c : Char) : List Char → Option (List Char)
  | d :: rest => if c = d then some rest else none
  | [] => none

/-- The days of a month. -/
def daysOf (year month : Nat) : Nat :=
  if month = 2 then
    if year % 4 = 0 ∧ (year % 100 ≠ 0 ∨ year % 400 = 0) then 29 else 28
  else if month = 4 ∨ month = 6 ∨ month = 9 ∨ month = 11 then 30
  else 31

/-- Take a date off a text. -/
def date? (text : List Char) : Option (List Char) := do
  let (year, rest) ← numberWithin? 4 0 9999 text
  let (month, rest) ← numberWithin? 2 1 12 (← after? '-' rest)
  let (_, rest) ← numberWithin? 2 1 (daysOf year month) (← after? '-' rest)
  return rest

/-- Take a time off a text: hours, minutes and seconds, maybe with a fraction. A minute may have a
leap second. -/
def time? (text : List Char) : Option (List Char) := do
  let (_, rest) ← numberWithin? 2 0 23 text
  let (_, rest) ← numberWithin? 2 0 59 (← after? ':' rest)
  let (_, rest) ← numberWithin? 2 0 60 (← after? ':' rest)
  match rest with
  | '.' :: fraction =>
    if (fraction.takeWhile Text.isDigit).isEmpty then none
    else some (fraction.dropWhile Text.isDigit)
  | _ => some rest

/-- Whether a text is empty or an offset from universal time. -/
def isOffset (text : List Char) : Bool :=
  match text with
  | [] | ['Z'] | ['z'] => true
  | sign :: rest =>
    let offset : Option (List Char) := do
      let (_, rest) ← numberWithin? 2 0 23 rest
      let (_, rest) ← numberWithin? 2 0 59 (← after? ':' rest)
      return rest
    (sign == '+' || sign == '-') && offset == some []

/-- Whether a text is a date, a time, or a date with a time and maybe an offset. -/
def isMoment (text : List Char) : Bool :=
  match date? text with
  | some [] => true
  | some (separator :: rest) =>
    (separator == 'T' || separator == 't' || separator == ' ') && (time? rest).any isOffset
  | none => time? text == some []

/-! ### Words -/

/-- The value of a word. -/
def Value.ofWord? (word : List Char) : Option Value :=
  if word = "true".toList then some (.flag true)
  else if word = "false".toList then some (.flag false)
  else if isMoment word then some (.moment (String.ofList word))
  else if isFloat word then some (.float (String.ofList word))
  else (integer? word).map .integer

example : integer? "0x1F_90".toList = some 8080 := by decide +kernel
example : integer? "080".toList = none := by decide +kernel
example : integer? "-9_223".toList = some (-9223) := by decide +kernel
example : isFloat "6.26e-34".toList = true := by decide +kernel
example : isFloat "1.".toList = false := by decide +kernel
example : isMoment "1979-02-29".toList = false := by decide +kernel
example : isMoment "1979-05-27T07:32:00.5-07:00".toList = true := by decide +kernel

end HeatPlacement.Toml
