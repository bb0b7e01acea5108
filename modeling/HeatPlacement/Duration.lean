import HeatPlacement.Panic
import HeatPlacement.Text.Blank
import HeatPlacement.Text.Unsigned

/-!
# Durations

* `Duration`: a span of time in whole milliseconds
* `Duration.read`: texts such as `500ms`, `5s`, `2m` and `7`
* `Duration.text`: the span in its largest whole unit
-/

namespace HeatPlacement

/-- A span of time in whole milliseconds. -/
structure Duration where
  millis : Nat
  deriving DecidableEq, Repr, Inhabited

namespace Duration

/-- So many seconds. -/
def ofSeconds (n : Nat) : Duration := ⟨1000 * n⟩

/-- The units that a text may name. -/
inductive Scale where
  | milliseconds
  | seconds
  | minutes
  deriving DecidableEq, Repr

/-- A span of `n` units. Minutes are counted in seconds of 64 bits, which hold only so many. -/
def Scale.times : Scale → Nat → Except Panic Duration
  | .milliseconds, n => .ok ⟨n⟩
  | .seconds, n => .ok (ofSeconds n)
  | .minutes, n => if n * 60 < Nat.pow 2 64 then .ok (ofSeconds (n * 60)) else .error .product

/-- Take the unit off the end of a text; without one the text counts seconds. -/
def Scale.split (text : List Char) : List Char × Scale :=
  match text.reverse with
  | 's' :: 'm' :: rest => (rest.reverse, .milliseconds)
  | 's' :: rest => (rest.reverse, .seconds)
  | 'm' :: rest => (rest.reverse, .minutes)
  | _ => (text, .seconds)

/-- The span that a text names, if it names one: an unsigned integer with its unit right behind it,
between blanks. -/
def read (text : String) : Except Panic (Option Duration) :=
  let (digits, scale) := Scale.split (Text.trim text.toList)
  (Text.unsigned? digits).mapM scale.times

/-- The span that a text names, or else a default. -/
def readOr (default : Duration) (text : String) : Except Panic Duration :=
  (read text).map fun found => found.getD default

/-- The digits behind the point for so many thousandths, without zeros at the end. -/
def fraction (thousandths : Nat) : List Char :=
  let digits := [thousandths / 100 % 10, thousandths / 10 % 10, thousandths % 10].map Nat.digitChar
  Text.trimEnd (· == '0') digits

/-- The span in seconds, below one second in milliseconds, and nothing in nanoseconds. -/
def text (d : Duration) : String :=
  if d.millis = 0 then "0ns"
  else if d.millis < 1000 then toString d.millis ++ "ms"
  else
    match fraction (d.millis % 1000) with
    | [] => toString (d.millis / 1000) ++ "s"
    | digits => toString (d.millis / 1000) ++ "." ++ String.ofList digits ++ "s"

example : (read " +5ms ").toOption = some (some ⟨5⟩) := by decide +kernel
example : (read "2m").toOption = some (some ⟨120000⟩) := by decide +kernel
example : (read "5 s").toOption = some none := by decide +kernel
example : text ⟨1500⟩ = "1.5s" := by decide +kernel

end Duration

end HeatPlacement
