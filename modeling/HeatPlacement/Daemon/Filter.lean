import HeatPlacement.Daemon.Event
import HeatPlacement.Text.Unsigned

/-!
# Log filters

A filter is a list of directives such as `info`, `valetd=debug` and `valet_store=off`. Of the
directives that concern an event the most specific one decides.

* `Threshold`: up to which level events are logged
* `Directive.read?`, `Filter.read?`: the directives that a text holds
* `Filter.passes`: whether an event is logged
-/

namespace HeatPlacement

/-- Up to which level events are logged; without one, none is. -/
abbrev Threshold := Option Level

namespace Threshold

/-- The threshold that a text names: a level in any case, `off`, or the place of a level. -/
def read? (text : String) : Option Threshold :=
  let lower := String.ofList (text.toList.map Char.toLower)
  match Text.unsigned? text.toList with
  | some 0 => some none
  | some n => (Level.all.find? fun level => level.rank == n).map some
  | none =>
    if text.isEmpty then some (some .error)
    else if lower == "off" then some none
    else
      (Level.all.find? fun level => String.ofList (level.name.toList.map Char.toLower) == lower).map
        some

/-- Whether a level is within the threshold. -/
def admits (threshold : Threshold) (level : Level) : Bool :=
  threshold.any fun most => level.rank ≤ most.rank

end Threshold

/-- What is logged of some part of the program. -/
structure Directive where
  /-- The start of the targets that are concerned; all of them without one. -/
  target : Option String
  /-- The span that events have to be in. -/
  span : Option String
  /-- Fields that events have to have, maybe with a value. -/
  fields : List String
  threshold : Threshold
  deriving DecidableEq, Repr, Inhabited

namespace Directive

/-- Whether a directive may begin with a character. Outside ASCII every one counts. -/
def mayStart (c : Char) : Bool :=
  Text.isDigit c || ('a' ≤ c && c ≤ 'z') || ('A' ≤ c && c ≤ 'Z') || "-:_".toList.contains c ||
    128 ≤ c.toNat

/-- The threshold behind an equals sign. Without one, and with nothing behind it, everything is
logged. -/
def readThreshold? : List Char → Option Threshold
  | [] | ['='] => some (some .trace)
  | '=' :: level => Threshold.read? (String.ofList level)
  | _ => none

/-- The span and the field between brackets, and what follows them. -/
def readBrackets? (text : List Char) : Option (Option String × List String × List Char) :=
  let (name, rest) := text.span fun c => c ≠ ']' ∧ c ≠ '\x7b'
  match rest with
  | ']' :: rest => some (some (String.ofList name), [], rest)
  | '\x7b' :: rest =>
    let (field, rest) := rest.span (· ≠ '\x7d')
    match field, rest with
    | _ :: _, '\x7d' :: ']' :: rest =>
      some (if name.isEmpty then none else some (String.ofList name), [String.ofList field], rest)
    | _, _ => none
  | _ => none

/-- The directive that a text holds. What is no threshold is a target, logged in full. -/
def read? (text : String) : Option Directive :=
  let (word, rest) := text.toList.span fun c => c ≠ '=' ∧ c ≠ '['
  let target : Option String := if word.isEmpty then none else some (String.ofList word)
  if word.head?.any (!mayStart ·) then none
  else
    match word, rest with
    | _, '[' :: rest =>
      (readBrackets? rest).bind fun (span, fields, rest) =>
        (readThreshold? rest).map fun threshold => ⟨target, span, fields, threshold⟩
    | [], _ => none
    | _, [] =>
      -- A word alone is a threshold for everything, if it can be one.
      match Threshold.read? text with
      | some threshold => some ⟨none, none, [], threshold⟩
      | none => some ⟨target, none, [], some .trace⟩
    | _, rest => (readThreshold? rest).map fun threshold => ⟨target, none, [], threshold⟩

example : read? "valetd=Debug" = some ⟨some "valetd", none, [], some .debug⟩ := by decide +kernel
example : read? "off" = some ⟨none, none, [], none⟩ := by decide +kernel
example : read? "a=b=c" = none := by decide +kernel

/-- Whether a directive can concern events outside spans. -/
def isStatic (directive : Directive) : Bool :=
  directive.span.isNone && directive.fields.all fun field => !field.toList.contains '='

/-- Whether a directive concerns an event. -/
def concerns (directive : Directive) (event : Event) : Bool :=
  directive.isStatic &&
    directive.target.all (fun target => target.toList.isPrefixOf event.target.toList) &&
    directive.fields.all event.fieldNames.contains

/-- How specific a directive is: the length of its target counts first, then its fields. -/
def moreSpecific (a b : Directive) : Bool :=
  let size (directive : Directive) : Nat :=
    (directive.target.map fun target => target.utf8ByteSize + 1).getD 0
  size b < size a || (size a = size b && b.fields.length < a.fields.length)

end Directive

/-- What is logged. -/
abbrev Filter := List Directive

namespace Filter

/-- The parts of a text between commas. -/
def parts (text : String) : List String :=
  (text.splitOn ",").filter fun part => !part.isEmpty

/-- The directives that a text holds; without any, only errors are logged. -/
def read? (text : String) : Option Filter :=
  ((parts text).mapM Directive.read?).map fun directives =>
    if directives.isEmpty then [⟨none, none, [], some .error⟩] else directives

/-- The filter without any settings. -/
def default : Filter :=
  [⟨none, none, [], some .info⟩, ⟨some "valetd", none, [], some .debug⟩,
    ⟨some "valet", none, [], some .debug⟩]

/-- The directive that decides about an event: the last one of the most specific ones. -/
def deciding? (filter : Filter) (event : Event) : Option Directive :=
  filter.foldl (fun best directive =>
    if !directive.concerns event then best
    else
      match best with
      | some known => if known.moreSpecific directive then best else some directive
      | none => some directive) none

/-- Whether an event is logged. -/
def passes (filter : Filter) (event : Event) : Bool :=
  (filter.deciding? event).any fun directive => directive.threshold.admits event.level

end Filter

end HeatPlacement
