/-!
# Blank characters

The characters with the white-space property, and trimming them from both ends of a text. The set
is wider than the four blanks that may stand between the tokens of a JSON text, which
`ReviewHub.Json.Cursor` has.
-/

namespace ReviewHub.Text

/-- The character has the white-space property. -/
def isBlank (c : Char) : Bool :=
  let n := c.toNat
  (9 ≤ n && n ≤ 13) || n == 0x20 || n == 0x85 || n == 0xA0 || n == 0x1680 ||
    (0x2000 ≤ n && n ≤ 0x200A) || n == 0x2028 || n == 0x2029 || n == 0x202F || n == 0x205F ||
    n == 0x3000

def trimStart (cs : List Char) : List Char :=
  cs.dropWhile isBlank

def trim (cs : List Char) : List Char :=
  (trimStart (trimStart cs).reverse).reverse

end ReviewHub.Text
