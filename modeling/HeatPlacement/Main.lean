import HeatPlacement.Daemon.Script

/-!
# The daemon

Follows the course that the arguments set, on the real files. It serves until its standard input
ends.
-/

namespace HeatPlacement

/-- The cause of a failed operation on files. -/
def FileError.ofFailure : IO.Error → FileError
  | .noFileOrDirectory _ _ _ => .notFound
  | .alreadyExists _ _ _ => .alreadyExists
  | .inappropriateType _ 20 _ => .notADirectory
  | .inappropriateType _ 21 _ => .isADirectory
  | e => .other (toString e)

/-- What an operation on files answers. -/
def attempt {α : Type} (action : IO α) : IO (Except FileError α) := do
  try
    return .ok (← action)
  catch e =>
    return .error (.ofFailure e)

/-- Follow a course. -/
def Script.perform : Script → IO UInt32
  | .exit status => return status.toUInt32
  | .say text next => do
    IO.println text
    next.perform
  | .complain text next => do
    IO.eprintln text
    next.perform
  | .readFile path next => do
    (next (← attempt (IO.FS.readFile path))).perform
  | .makeDirectories path next => do
    (next (← attempt (IO.FS.createDirAll path))).perform
  | .openStore path next => do
    (next (← attempt (IO.FS.withFile path .append fun _ => pure ()))).perform
  | .serve next => do
    let _ ← (← IO.getStdin).readToEnd
    next.perform

end HeatPlacement

/-- Run the daemon. -/
def main (arguments : List String) : IO UInt32 := do
  (HeatPlacement.Daemon.script arguments (← IO.getEnv "RUST_LOG")).perform
