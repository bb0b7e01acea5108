import HeatPlacement.Text.Octets

/-!
# Damaged UTF-8

* `Text.lossy`: the text of any octets, with a replacement character for every damaged place
-/

namespace HeatPlacement.Text

/-- A character of several octets that has begun. -/
structure Sequence where
  /-- The bits so far. -/
  value : Nat
  /-- How many octets are to come. -/
  left : Nat
  /-- The range of the next octet. -/
  low : Nat
  high : Nat

namespace Sequence

/-- What begins with an octet. Ranges of second octets exclude overlong forms, surrogates and
values above the last character. -/
def begin (octet : Nat) : Option Sequence :=
  if 0xC2 ≤ octet && octet ≤ 0xDF then some ⟨octet - 0xC0, 1, 0x80, 0xBF⟩
  else if octet == 0xE0 then some ⟨0, 2, 0xA0, 0xBF⟩
  else if octet == 0xED then some ⟨13, 2, 0x80, 0x9F⟩
  else if 0xE1 ≤ octet && octet ≤ 0xEF then some ⟨octet - 0xE0, 2, 0x80, 0xBF⟩
  else if octet == 0xF0 then some ⟨0, 3, 0x90, 0xBF⟩
  else if 0xF1 ≤ octet && octet ≤ 0xF3 then some ⟨octet - 0xF0, 3, 0x80, 0xBF⟩
  else if octet == 0xF4 then some ⟨4, 3, 0x80, 0x8F⟩
  else none

/-- The sequence with one more octet, if that continues it. -/
def add? (s : Sequence) (octet : Nat) : Option Sequence :=
  if s.low ≤ octet && octet ≤ s.high then
    some ⟨64 * s.value + (octet - 0x80), s.left - 1, 0x80, 0xBF⟩
  else none

end Sequence

/-- What stands for a damaged place. -/
def replacement : Char := '\uFFFD'

/-- The characters of octets behind a sequence that has begun. A sequence that breaks off is one
damaged place, and the octet that breaks it is read anew. -/
def lossyFrom : Option Sequence → List UInt8 → List Char
  | none, [] => []
  | some _, [] => [replacement]
  | state, octet :: rest =>
    let n := octet.toNat
    let fresh : List Char :=
      if n < 0x80 then Char.ofNat n :: lossyFrom none rest
      else
        match Sequence.begin n with
        | some s => lossyFrom (some s) rest
        | none => replacement :: lossyFrom none rest
    match state with
    | none => fresh
    | some s =>
      match s.add? n with
      | some next =>
        if next.left = 0 then Char.ofNat next.value :: lossyFrom none rest
        else lossyFrom (some next) rest
      | none => replacement :: fresh

/-- The text of any octets. -/
def lossy (octets : List UInt8) : String := String.ofList (lossyFrom none octets)

example : lossy (octets "aé日😀") = "aé日😀" := by decide +kernel
example : lossy [0xE6, 0x97, 0x41, 0xFF] = "\uFFFDA\uFFFD" := by decide +kernel

end HeatPlacement.Text
