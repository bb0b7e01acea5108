import HeatPlacement.Text.Unsigned

/-!
# Arguments

The arguments of the daemon: `--config` or `-c` with a path, `--port` with a number, and `--help`
or `-h`.

* `Arguments.read`: the options that a list of arguments sets
* `Refusal`: why the daemon does not start, with what it says instead
-/

namespace HeatPlacement

/-- An option with a value. -/
inductive OptionName where
  | config
  | port
  deriving DecidableEq, Repr, Inhabited

/-- How an option is shown. -/
def OptionName.shown : OptionName → String
  | .config => "--config <CONFIG>"
  | .port => "--port <PORT>"

/-- Why a text is no integer of 64 bits. -/
inductive IntegerFault where
  | empty
  | invalidDigit
  | tooLarge
  | tooSmall
  deriving DecidableEq, Repr, Inhabited

/-- The wording of a fault. -/
def IntegerFault.message : IntegerFault → String
  | .empty => "cannot parse integer from empty string"
  | .invalidDigit => "invalid digit found in string"
  | .tooLarge => "number too large to fit in target type"
  | .tooSmall => "number too small to fit in target type"

/-- The size of the least integer of 64 bits: `2 ^ 63`. -/
def leastSize : Nat := 9223372036854775808

/-- Add digits to the size of an integer of 64 bits. The first fault counts. -/
def integerSize (negative : Bool) : (size : Nat) → List Char → Except IntegerFault Nat
  | size, [] => .ok size
  | size, c :: rest =>
    let next := 10 * size + digitValue c
    if !Text.isDigit c then .error .invalidDigit
    else if negative && leastSize < next then .error .tooSmall
    else if !negative && leastSize ≤ next then .error .tooLarge
    else integerSize negative next rest

/-- The integer of 64 bits that a text holds: digits behind a sign or not. -/
def readInteger (text : List Char) : Except IntegerFault Int :=
  let digits (negative : Bool) (digits : List Char) : Except IntegerFault Int :=
    if digits.isEmpty then .error .invalidDigit
    else (integerSize negative 0 digits).map fun size => if negative then -(size : Int) else size
  match text with
  | [] => .error .empty
  | '-' :: rest => digits true rest
  | '+' :: rest => digits false rest
  | _ => digits false text

/-- Why the daemon does not start. -/
inductive Refusal where
  /-- Help was asked for. -/
  | help
  /-- No option has this name. -/
  | unexpected (argument : String)
  /-- An option without a value has one. -/
  | unexpectedValue (value : String)
  | repeated (option : OptionName)
  | missingValue (option : OptionName)
  | invalidPort (value : String) (fault : IntegerFault)
  | portOutOfRange (value : Int)
  deriving DecidableEq, Repr, Inhabited

namespace Refusal

/-- How the daemon is called. -/
def usage : String := "Usage: valetd [OPTIONS]"

/-- What help says. -/
def helpText : String :=
  "Valet placement API daemon\n\n" ++ usage ++ "\n\nOptions:\n" ++
    "  -c, --config <CONFIG>  Path to valet.toml. Defaults apply when omitted\n" ++
    "      --port <PORT>      Port to listen on (overrides `[server] port`)\n" ++
    "  -h, --help             Print help"

/-- An error with the hint at help, and with the usage or not. -/
def complaint (text : String) (withUsage : Bool) : String :=
  "error: " ++ text ++ "\n\n" ++ (if withUsage then usage ++ "\n\n" else "") ++
    "For more information, try \x27--help\x27."

/-- A text between single quotes. -/
def quoted (text : String) : String := "\x27" ++ text ++ "\x27"

/-- An error about the value of the port. -/
def invalidValue (value cause : String) : String :=
  complaint ("invalid value " ++ quoted value ++ " for " ++ quoted OptionName.port.shown ++ ": " ++
    cause) false

/-- What is said instead of starting. -/
def text : Refusal → String
  | help => helpText
  | unexpected argument => complaint ("unexpected argument " ++ quoted argument ++ " found") true
  | unexpectedValue value =>
    complaint ("unexpected value " ++ quoted value ++ " for " ++ quoted "--help" ++
      " found; no more were expected") true
  | repeated option =>
    complaint ("the argument " ++ quoted option.shown ++ " cannot be used multiple times") true
  | missingValue option =>
    complaint ("a value is required for " ++ quoted option.shown ++ " but none was supplied") false
  | invalidPort value fault => invalidValue value fault.message
  | portOutOfRange value =>
    invalidValue (toString value) (toString value ++ " is not in 0..=65535")

/-- The exit code; only help is no failure. -/
def status : Refusal → Nat
  | help => 0
  | _ => 2

end Refusal

/-- The options of the daemon. -/
structure Arguments where
  config : Option String
  port : Option Nat
  deriving DecidableEq, Repr, Inhabited

namespace Arguments

/-- Where a reader of arguments stands. -/
structure Reading where
  found : Arguments
  /-- The last option, with its value if it has come. It is set when the next option comes. -/
  pending : Option (OptionName × Option String)
  /-- Whether no options may follow. -/
  closed : Bool
  deriving DecidableEq, Repr

/-- Set an option. It may be set once. -/
def set (found : Arguments) (option : OptionName) (value : String) : Except Refusal Arguments :=
  match option with
  | .config =>
    if found.config.isSome then .error (.repeated .config)
    else if value.isEmpty then .error (.missingValue .config)
    else .ok { found with config := some value }
  | .port =>
    if found.port.isSome then .error (.repeated .port)
    else
      match readInteger value.toList with
      | .error fault => .error (.invalidPort value fault)
      | .ok n =>
        if 0 ≤ n && n < 65536 then .ok { found with port := some n.toNat }
        else .error (.portOutOfRange n)

namespace Reading

/-- Set the last option. -/
def settle (reading : Reading) : Except Refusal Reading :=
  match reading.pending with
  | none => .ok reading
  | some (option, none) => .error (.missingValue option)
  | some (option, some value) =>
    (reading.found.set option value).map fun found => { reading with found, pending := none }

/-- Take an option, with its value if that is joined to it. -/
def option (reading : Reading) (option : OptionName) (value : Option String) :
    Except Refusal Reading := do
  let reading ← reading.settle
  match value with
  | some value => return { reading with found := ← reading.found.set option value }
  | none => return { reading with pending := some (option, none) }

/-- Give help, after the last option has been set. -/
def help (reading : Reading) : Except Refusal Reading := do
  let _ ← reading.settle
  throw .help

/-- Take an argument that begins with two hyphens. -/
def long (reading : Reading) (text : List Char) : Except Refusal Reading :=
  let name := String.ofList (text.takeWhile (· ≠ '='))
  let value :=
    match text.dropWhile (· ≠ '=') with
    | [] => none
    | _ :: value => some (String.ofList value)
  match name, value with
  | "config", _ => reading.option .config value
  | "port", _ => reading.option .port value
  | "help", none => reading.help
  | "help", some value => throw (.unexpectedValue value)
  | _, _ => throw (.unexpected ("--" ++ name))

/-- Take an argument that begins with one hyphen. -/
def short (reading : Reading) : List Char → Except Refusal Reading
  | 'c' :: [] => reading.option .config none
  -- The value may be joined with an equals sign or directly.
  | 'c' :: '=' :: value => reading.option .config (some (String.ofList value))
  | 'c' :: value => reading.option .config (some (String.ofList value))
  | 'h' :: _ => reading.help
  | c :: _ => throw (.unexpected (String.ofList ['-', c]))
  | [] => throw (.unexpected "-")

/-- Take an argument that is no option: the value of the last option. -/
def word (reading : Reading) (argument : String) : Except Refusal Reading :=
  match reading.pending with
  | some (option, none) => .ok { reading with pending := some (option, some argument) }
  | _ => .error (.unexpected argument)

/-- Take one argument. -/
def take (reading : Reading) (argument : String) : Except Refusal Reading :=
  if reading.closed then throw (.unexpected argument)
  else
    match argument.toList with
    | ['-', '-'] => .ok { reading with closed := true }
    | '-' :: '-' :: text => reading.long text
    | '-' :: c :: text => reading.short (c :: text)
    | _ => reading.word argument

end Reading

/-- The options that a list of arguments sets. -/
def read (arguments : List String) : Except Refusal Arguments := do
  let reading ← arguments.foldlM Reading.take ⟨⟨none, none⟩, none, false⟩
  let reading ← reading.settle
  return reading.found

example : read ["-cvalet.toml", "--port", "007"] = .ok ⟨some "valet.toml", some 7⟩ := by cbv
example : read ["--port", "x", "--bogus"] = .error (.unexpected "--bogus") := by cbv
example : read ["--port", "--help"] = .error (.missingValue .port) := by cbv

end Arguments

end HeatPlacement
