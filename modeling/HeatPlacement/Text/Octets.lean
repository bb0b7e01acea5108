import HeatPlacement.Text.Hex

/-!
# Octets

* `Text.octets`: the UTF-8 octets of a text; `Text.ofOctets?`: the text of UTF-8 octets
* `Text.digitOf?`: the value of an octet that is a hexadecimal digit
-/

namespace HeatPlacement.Text

/-- The UTF-8 octets of a text. -/
def octets (text : String) : List UInt8 := text.toByteArray.data.toList

/-- Different texts have different octets. -/
theorem octets_inj {a b : String} (h : octets a = octets b) : a = b := by
  apply String.toByteArray_inj.1
  cases ha : a.toByteArray with
  | mk x =>
    cases hb : b.toByteArray with
    | mk y =>
      simp only [octets, ha, hb] at h
      rw [Array.toList_inj.1 h]

/-- The text of octets, if they are UTF-8. -/
def ofOctets? (octets : List UInt8) : Option String := String.fromUTF8? ⟨octets.toArray⟩

/-- The value of an octet that is a hexadecimal digit. -/
def digitOf? (octet : UInt8) : Option Nat := hexValue? (Char.ofNat octet.toNat)

end HeatPlacement.Text
