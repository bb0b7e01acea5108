/-!
# Blanks

Unicode's White_Space characters, and texts cut at them.

* `Text.isBlank`: whether a character is a blank
* `Text.trim`: a text without blanks at its two ends
* `Text.trimMatches`: the same for any class of characters
-/

namespace HeatPlacement.Text

/-- The characters with the property White_Space. -/
def isBlank (c : Char) : Bool :=
  let n := c.toNat
  (9 ≤ n && n ≤ 13) || n == 32 || n == 0x85 || n == 0xA0 || n == 0x1680 ||
    (0x2000 ≤ n && n ≤ 0x200A) || n == 0x2028 || n == 0x2029 || n == 0x202F || n == 0x205F ||
    n == 0x3000

/-- Drop the characters of a class from both ends. -/
def trimMatches (drop : Char → Bool) (text : List Char) : List Char :=
  ((text.dropWhile drop).reverse.dropWhile drop).reverse

/-- Drop the blanks from both ends. -/
def trim (text : List Char) : List Char := trimMatches isBlank text

/-- Drop the characters of a class from the end. -/
def trimEnd (drop : Char → Bool) (text : List Char) : List Char :=
  (text.reverse.dropWhile drop).reverse

end HeatPlacement.Text
