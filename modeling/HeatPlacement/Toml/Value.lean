import HeatPlacement.Json.Basic

/-!
# Values and tables of configuration texts

* `Toml.Value`: what a key may hold
* `Node`: a place in a document that is still being read, with what may be added to it
* `Members.assign`: bind a dotted key; `Members.descend`: change the table under a header;
  `Members.open?`, `Members.append?`: begin a table or an item of a list of tables
* `finishedMembers`: the finished table
-/

namespace HeatPlacement.Toml

/-- A value. -/
inductive Value where
  | text (s : String)
  | integer (n : Int)
  /-- A float, as it was written. -/
  | float (word : String)
  | flag (b : Bool)
  /-- A date, a time or both, as they were written. -/
  | moment (word : String)
  | list (items : List Value)
  | table (members : List (String × Value))
  deriving Repr, Inhabited

/-- How a table came about. -/
inductive Origin where
  /-- By a header of its own. -/
  | header
  /-- By the header of a table inside it. -/
  | between
  /-- By a dotted key. -/
  | dotted
  deriving DecidableEq, Repr, Inhabited

/-- A place in a document. -/
inductive Node where
  /-- A value, to which nothing can be added. -/
  | value (v : Value)
  | table (origin : Origin) (members : List (String × Node))
  /-- A list of tables; only the last one can still grow. -/
  | tables (before : List (List (String × Node))) (last : List (String × Node))
  deriving Inhabited

/-- The places in a table. -/
abbrev Members := Fields Node

namespace Members

/-- Bind the last name of a dotted key, in tables that dotted keys made or make. Neither a bound
name nor a table with a header can be reached so. -/
def assign : (path : List String) → (name : String) → Value → Members → Option Members
  | [], name, value, members =>
    if Fields.has members name then none else some (Fields.insert members name (.value value))
  | step :: rest, name, value, members =>
    match Fields.get? members step with
    | none =>
      (assign rest name value []).map fun inner => Fields.insert members step (.table .dotted inner)
    | some (.table .dotted inner) =>
      (assign rest name value inner).map fun inner =>
        Fields.insert members step (.table .dotted inner)
    -- What headers made may be passed, but the last table has to be one of dotted keys.
    | some (.table .between inner) =>
      if rest.isEmpty then none
      else
        (assign rest name value inner).map fun inner =>
          Fields.insert members step (.table .between inner)
    | some (.tables before last) =>
      if rest.isEmpty then none
      else
        (assign rest name value last).map fun last =>
          Fields.insert members step (.tables before last)
    | some (.table .header _) | some (.value _) => none

/-- Change the table at the end of a path. Missing tables are made, and of a list of tables it is
the last one that is entered. -/
def descend : (path : List String) → (change : Members → Option Members) → Members → Option Members
  | [], change, members => change members
  | step :: rest, change, members =>
    match Fields.get? members step with
    | none =>
      (descend rest change []).map fun inner => Fields.insert members step (.table .between inner)
    | some (.table origin inner) =>
      (descend rest change inner).map fun inner =>
        Fields.insert members step (.table origin inner)
    | some (.tables before last) =>
      (descend rest change last).map fun last => Fields.insert members step (.tables before last)
    | some (.value _) => none

/-- Begin a table. One that headers of inner tables made is taken over, once. -/
def open? (name : String) (members : Members) : Option Members :=
  match Fields.get? members name with
  | none => some (Fields.insert members name (.table .header []))
  | some (.table .between inner) => some (Fields.insert members name (.table .header inner))
  | some _ => none

/-- Begin the next item of a list of tables. -/
def append? (name : String) (members : Members) : Option Members :=
  match Fields.get? members name with
  | none => some (Fields.insert members name (.tables [] []))
  | some (.tables before last) =>
    some (Fields.insert members name (.tables (before ++ [last]) []))
  | some _ => none

end Members

mutual

/-- The value that a place holds in the end. -/
def Node.finished : Node → Value
  | .value v => v
  | .table _ members => .table (finishedMembers members)
  | .tables before last => .list (finishedItems before ++ [.table (finishedMembers last)])

/-- The values of several places. -/
def finishedMembers : List (String × Node) → List (String × Value)
  | [] => []
  | (name, node) :: rest => (name, node.finished) :: finishedMembers rest

/-- The tables of a list. -/
def finishedItems : List (List (String × Node)) → List Value
  | [] => []
  | members :: rest => .table (finishedMembers members) :: finishedItems rest

end

end HeatPlacement.Toml
