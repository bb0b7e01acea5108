import HeatPlacement.Text.Octets

/-!
# Replies on the wire

A reply is read from all the octets that came before the connection was closed.

* `Reply.readHead`: version, status code and fields
* `Reply.length`: how the fields delimit the body
* `Reply.chunks`: a body in chunks
* `Reply.read`: the reply behind any interim ones
-/

namespace HeatPlacement.Http

/-- Why no reply can be read. -/
inductive ReplyError where
  /-- The connection was closed before the head was complete. -/
  | incomplete
  | version
  | status
  | field
  | contentLength
  /-- A transfer coding that the version does not know. -/
  | transferEncoding
  | tooLarge
  /-- The body was cut short or is not well delimited. -/
  | body
  deriving DecidableEq, Repr, Inhabited

/-- The wording of an error. -/
def ReplyError.message : ReplyError → String
  | .incomplete => "connection closed before message completed"
  | .version => "invalid HTTP version parsed"
  | .status => "invalid HTTP status-code parsed"
  | .field => "invalid HTTP header parsed"
  | .contentLength => "invalid content-length parsed"
  | .transferEncoding => "unexpected transfer-encoding parsed"
  | .tooLarge => "message head is too large"
  | .body => "error reading a body from connection"

/-- A reply: status code and body. -/
structure Reply where
  code : Nat
  body : List UInt8
  deriving DecidableEq, Repr, Inhabited

namespace Reply

/-- Octets that are given as text. -/
def ascii (text : String) : List UInt8 := Text.octets text

/-! ### Lines -/

/-- What is read of a head, and the octets behind it. -/
abbrev Parsed (α : Type) := Except ReplyError (α × List UInt8)

/-- The end of a line whose carriage return has been read. -/
def lineFeed (bad : ReplyError) : List UInt8 → Parsed Unit
  | [] => .error .incomplete
  | 10 :: rest => .ok ((), rest)
  | _ => .error bad

/-- Whether an octet may stand in a reason phrase or in the value of a field. -/
def isText (octet : UInt8) : Bool := octet == 9 || (32 ≤ octet && octet != 127)

/-- A line of text up to its end. -/
def line (bad : ReplyError) : List UInt8 → Parsed (List UInt8)
  | [] => .error .incomplete
  | 10 :: rest => .ok ([], rest)
  | 13 :: rest => (lineFeed bad rest).map fun (_, rest) => ([], rest)
  | octet :: rest =>
    if isText octet then (line bad rest).map fun (text, rest) => (octet :: text, rest)
    else .error bad

/-- Pass over empty lines. -/
def skipEmptyLines : List UInt8 → Parsed Unit
  | 13 :: 10 :: rest => skipEmptyLines rest
  | 10 :: rest => skipEmptyLines rest
  | [13] => .error .incomplete
  | 13 :: _ => .error .field
  | rest => .ok ((), rest)

/-! ### The status line -/

/-- Read a fixed text. -/
def literal (bad : ReplyError) : (text : List UInt8) → List UInt8 → Parsed Unit
  | [], rest => .ok ((), rest)
  | _ :: _, [] => .error .incomplete
  | expected :: text, octet :: rest =>
    if octet == expected then literal bad text rest else .error bad

/-- Read one decimal digit. -/
def digit : List UInt8 → Parsed Nat
  | [] => .error .incomplete
  | octet :: rest =>
    if 48 ≤ octet && octet ≤ 57 then .ok (octet.toNat - 48, rest) else .error .status

/-- The version, the code and the reason phrase, which is not kept. The answer says whether the
version is 1.1. -/
def statusLine (octets : List UInt8) : Except ReplyError ((Bool × Nat) × List UInt8) := do
  let (_, rest) ← literal .version (ascii "HTTP/1.") octets
  let (recent, rest) ←
    match rest with
    | [] => Except.error .incomplete
    | 48 :: rest => .ok (false, rest)
    | 49 :: rest => .ok (true, rest)
    | _ => .error .version
  let (_, rest) ← literal .version (ascii " ") rest
  let (a, rest) ← digit rest
  let (b, rest) ← digit rest
  let (c, rest) ← digit rest
  let rest ←
    match rest with
    | [] => Except.error .incomplete
    | 32 :: rest => (line .status rest).map Prod.snd
    | 13 :: rest => (lineFeed .status rest).map Prod.snd
    | 10 :: rest => .ok rest
    | _ => .error .status
  if a = 0 then .error .status
  else .ok ((recent, 100 * a + 10 * b + c), rest)

/-! ### Fields -/

/-- Whether an octet may stand in the name of a field. -/
def isNameOctet (octet : UInt8) : Bool :=
  (48 ≤ octet && octet ≤ 57) || (65 ≤ octet && octet ≤ 90) || (97 ≤ octet && octet ≤ 122) ||
    (ascii "!#$%&\x27*+-.^_\x60|~").contains octet

/-- The lower-case form of an ASCII letter. -/
def lower (octet : UInt8) : UInt8 := if 65 ≤ octet && octet ≤ 90 then octet + 32 else octet

/-- Whether an octet is a blank within a line. -/
def isBlank (octet : UInt8) : Bool := octet == 32 || octet == 9

/-- Drop the blanks at both ends. -/
def trim (octets : List UInt8) : List UInt8 :=
  ((octets.dropWhile isBlank).reverse.dropWhile isBlank).reverse

/-- The name of a field up to its colon, in lower case. -/
def fieldName : List UInt8 → Parsed (List UInt8)
  | [] => .error .incomplete
  | 58 :: rest => .ok ([], rest)
  | octet :: rest =>
    if isNameOctet octet then
      (fieldName rest).map fun (name, rest) => (lower octet :: name, rest)
    else .error .field

/-- The end of a line takes one octet. -/
theorem length_lineFeed {bad : ReplyError} {octets rest : List UInt8}
    (h : lineFeed bad octets = .ok ((), rest)) : octets.length = rest.length + 1 := by
  unfold lineFeed at h
  split at h
  · simp at h
  · obtain ⟨_, rfl⟩ := Prod.mk.inj (Except.ok.inj h)
    rfl
  · simp at h

/-- A line takes at least one octet. -/
theorem length_line {bad : ReplyError} {octets text rest : List UInt8}
    (h : line bad octets = .ok (text, rest)) : rest.length < octets.length := by
  induction octets generalizing text with
  | nil => simp [line] at h
  | cons octet tail ih =>
    unfold line at h
    split at h
    · simp at h
    · next heq => simp_all
    · next heq =>
      obtain ⟨_, rfl⟩ := List.cons.inj heq
      cases hf : lineFeed bad tail with
      | error e => simp [hf, Except.map] at h
      | ok found =>
        obtain ⟨_, left⟩ := found
        simp only [hf, Except.map, Except.ok.injEq, Prod.mk.injEq] at h
        obtain ⟨_, rfl⟩ := h
        have := length_lineFeed hf
        simp; omega
    · next heq =>
      obtain ⟨rfl, rfl⟩ := List.cons.inj heq
      split at h
      · cases hl : line bad tail with
        | error e => simp [hl, Except.map] at h
        | ok found =>
          obtain ⟨more, left⟩ := found
          simp only [hl, Except.map, Except.ok.injEq, Prod.mk.injEq] at h
          obtain ⟨_, rfl⟩ := h
          have := ih hl
          simp; omega
      · simp at h

/-- A name takes at least one octet. -/
theorem length_fieldName {octets name rest : List UInt8}
    (h : fieldName octets = .ok (name, rest)) : rest.length < octets.length := by
  induction octets generalizing name with
  | nil => simp [fieldName] at h
  | cons octet tail ih =>
    unfold fieldName at h
    split at h
    · simp at h
    · next heq => simp_all
    · next heq =>
      obtain ⟨rfl, rfl⟩ := List.cons.inj heq
      split at h
      · cases hl : fieldName tail with
        | error e => simp [hl, Except.map] at h
        | ok found =>
          obtain ⟨more, left⟩ := found
          simp only [hl, Except.map, Except.ok.injEq, Prod.mk.injEq] at h
          obtain ⟨_, rfl⟩ := h
          have := ih hl
          simp; omega
      · simp at h

/-- The fields up to the empty line. -/
def fields (octets : List UInt8) : Parsed (List (List UInt8 × List UInt8)) :=
  match octets with
  | [] => .error .incomplete
  | 10 :: rest => .ok ([], rest)
  | 13 :: rest => (lineFeed .field rest).map fun (_, rest) => ([], rest)
  | 58 :: _ => .error .field
  | octets =>
    match _hn : fieldName octets with
    | .error e => .error e
    | .ok (name, rest) =>
      match _hl : line .field rest with
      | .error e => .error e
      | .ok (value, rest) =>
        (fields rest).map fun (more, rest) => ((name, trim value) :: more, rest)
termination_by octets.length
decreasing_by
  have := length_fieldName _hn
  have := length_line _hl
  simp_wf
  omega

/-- A head. -/
structure Head where
  /-- Whether the version is 1.1. -/
  recent : Bool
  code : Nat
  fields : List (List UInt8 × List UInt8)

/-- Read a head behind any empty lines. -/
def readHead (octets : List UInt8) : Except ReplyError (Head × List UInt8) := do
  let (_, rest) ← skipEmptyLines octets
  let ((recent, code), rest) ← statusLine rest
  let (fields, rest) ← fields rest
  if 100 < fields.length then .error .tooLarge
  else .ok (⟨recent, code, fields⟩, rest)

/-! ### Bodies -/

/-- How a body ends. -/
inductive Length where
  | octets (n : Nat)
  | chunked
  | untilClose
  deriving DecidableEq, Repr

/-- The values of the fields with a name. -/
def Head.values (head : Head) (name : String) : List (List UInt8) :=
  (head.fields.filter fun field => field.1 == ascii name).map Prod.snd

/-- Split a value at its commas. -/
def commas : List UInt8 → List (List UInt8)
  | [] => [[]]
  | 44 :: rest => [] :: commas rest
  | octet :: rest =>
    match commas rest with
    | [] => [[octet]]
    | item :: items => (octet :: item) :: items

/-- A number of 64 bits in decimal digits. -/
def number? (octets : List UInt8) : Option Nat :=
  if octets.isEmpty || !octets.all (fun octet => 48 ≤ octet && octet ≤ 57) then none
  else
    some (octets.foldl (fun n octet => 10 * n + (octet.toNat - 48)) 0) |>.filter (· < Nat.pow 2 64)

/-- The length that all the given values agree on. -/
def agreedLength? (values : List (List UInt8)) : Option Nat := do
  let numbers ← (values.flatMap commas).mapM fun item => number? (trim item)
  match numbers with
  | [] => none
  | n :: more => if more.all (· == n) then some n else none

/-- How the body ends. Some codes have none; chunks come before a length. -/
def length (head : Head) : Except ReplyError Length :=
  if head.code = 101 || head.code = 204 || head.code = 304 then .ok (.octets 0)
  else
    let codings := head.values "transfer-encoding"
    let lengths := head.values "content-length"
    -- The last coding alone decides, and a length beside it is not looked at.
    match codings.getLast? with
    | some coding =>
      if !head.recent then .error .transferEncoding
      else if (((commas coding).getLast?.map trim).getD []).map lower == ascii "chunked" then
        .ok .chunked
      else .ok .untilClose
    | none =>
      if lengths.isEmpty then .ok .untilClose
      else
        match agreedLength? lengths with
        | none => .error .contentLength
        | some n => if n ≤ Nat.pow 2 64 - 3 then .ok (.octets n) else .error .tooLarge

/-- Where a reader of chunks stands. -/
inductive ChunkState where
  /-- Before the first digit of a size. -/
  | start
  | size (n : Nat)
  /-- Behind the digits, with blanks allowed until the line goes on. -/
  | sizeBlank (n : Nat)
  | extension (n : Nat)
  | sizeFeed (n : Nat)
  /-- Within a chunk that has so many octets to come. -/
  | data (left : Nat)
  | dataReturn
  | dataFeed
  /-- At the start of a line behind the last chunk. -/
  | lastLine
  | trailer
  | trailerFeed
  | lastFeed
  | complete
  deriving DecidableEq, Repr

namespace ChunkState

/-- What follows the size of a chunk. -/
def sized (n : Nat) : ChunkState := if n = 0 then .lastLine else .data n

/-- What may follow the digits of a size. -/
def afterDigits (n : Nat) (octet : UInt8) : Option ChunkState :=
  if isBlank octet then some (.sizeBlank n)
  else if octet == 59 then some (.extension n)
  else if octet == 13 then some (.sizeFeed n)
  else none

/-- The state behind one octet, and whether the octet belongs to the body. -/
def step (state : ChunkState) (octet : UInt8) : Option (ChunkState × Bool) :=
  let quiet (next : Option ChunkState) : Option (ChunkState × Bool) := next.map fun s => (s, false)
  match state with
  | .start => quiet ((Text.digitOf? octet).map .size)
  | .size n =>
    match Text.digitOf? octet with
    | some d => quiet (if 16 * n + d < Nat.pow 2 64 then some (.size (16 * n + d)) else none)
    | none => quiet (afterDigits n octet)
  | .sizeBlank n => quiet (afterDigits n octet)
  -- A line feed alone must not end the line of a size.
  | .extension n =>
    quiet (if octet == 13 then some (.sizeFeed n) else if octet == 10 then none
      else some (.extension n))
  | .sizeFeed n => quiet (if octet == 10 then some (sized n) else none)
  | .data left => some (if left ≤ 1 then .dataReturn else .data (left - 1), true)
  | .dataReturn => quiet (if octet == 13 then some .dataFeed else none)
  | .dataFeed => quiet (if octet == 10 then some .start else none)
  | .lastLine => quiet (some (if octet == 13 then .lastFeed else .trailer))
  | .trailer => quiet (some (if octet == 13 then .trailerFeed else .trailer))
  | .trailerFeed => quiet (if octet == 10 then some .lastLine else none)
  | .lastFeed => quiet (if octet == 10 then some .complete else none)
  | .complete => some (.complete, false)

end ChunkState

/-- The octets of a body in chunks. What follows the last chunk is not looked at. -/
def chunks (state : ChunkState) : List UInt8 → Option (List UInt8)
  | [] => if state = .complete then some [] else none
  | octet :: rest =>
    match state.step octet with
    | none => none
    | some (next, true) => (chunks next rest).map (octet :: ·)
    | some (next, false) => chunks next rest

/-- The body that a head announces. -/
def readBody (ends : Length) (octets : List UInt8) : Except ReplyError (List UInt8) :=
  match ends with
  | .untilClose => .ok octets
  | .octets n => if octets.length < n then .error .body else .ok (octets.take n)
  | .chunked =>
    match chunks .start octets with
    | some body => .ok body
    | none => .error .body

/-! ### Replies -/

/-- Whether a code announces that the reply is still to come. -/
def isInterim (code : Nat) : Bool := 100 ≤ code && code < 200 && code != 101

/-- Read a reply, with so many interim ones before it at most. -/
def readWithin : (interim : Nat) → List UInt8 → Except ReplyError Reply
  | interim, octets => do
    let (head, rest) ← readHead octets
    if isInterim head.code then
      match interim with
      | 0 => .error .incomplete
      | interim + 1 => readWithin interim rest
    else
      let ends ← length head
      return ⟨head.code, ← readBody ends rest⟩

/-- Read a reply from all the octets of a connection. Every interim reply takes some of them. -/
def read (octets : List UInt8) : Except ReplyError Reply := readWithin octets.length octets

end Reply

end HeatPlacement.Http
