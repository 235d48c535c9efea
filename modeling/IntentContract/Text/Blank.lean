/-!
# Blank characters

The characters a definition may be spaced with, and that a date may carry in front of its
numbers, are those with the `White_Space` property: the ASCII controls from tab to carriage
return, the space, and the typographic spaces and line separators beyond ASCII.
-/

namespace IntentContract.Text

/-- **A blank character**: one with the property `White_Space`. -/
def isBlank (c : Char) : Bool :=
  let n := c.toNat
  (0x09 ≤ n && n ≤ 0x0D) || n == 0x20 || n == 0x85 || n == 0xA0 || n == 0x1680
    || (0x2000 ≤ n && n ≤ 0x200A) || n == 0x2028 || n == 0x2029 || n == 0x202F
    || n == 0x205F || n == 0x3000

end IntentContract.Text
