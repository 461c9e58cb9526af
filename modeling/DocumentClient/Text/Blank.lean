/-!
# Blank characters

The characters that count as white space in the character database. Numbers in text may have
them on both sides.
-/

namespace DocumentClient.Text

def isBlank (c : Char) : Bool :=
  let n := c.toNat
  (0x9 ≤ n && n ≤ 0xD) || n = 0x20 || n = 0x85 || n = 0xA0 || n = 0x1680
    || (0x2000 ≤ n && n ≤ 0x200A) || n = 0x2028 || n = 0x2029 || n = 0x202F || n = 0x205F
    || n = 0x3000

/-- The characters between the blanks at both ends. -/
def trimBlank (cs : List Char) : List Char :=
  ((cs.dropWhile isBlank).reverse.dropWhile isBlank).reverse

example : trimBlank [' ', '4', ' ', '2', '\t'] = ['4', ' ', '2'] := by decide

end DocumentClient.Text
