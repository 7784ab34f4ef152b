/-!
# White space

The characters with the Unicode property `White_Space`. The byte order mark, the zero width space
and the Mongolian vowel separator are not among them.
-/

namespace RouteAtlas.Text

/-- The character has the property `White_Space`. -/
def isBlank (c : Char) : Bool :=
  let n := c.toNat
  (9 ≤ n && n ≤ 13) || n == 0x20 || n == 0x85 || n == 0xa0 || n == 0x1680
    || (0x2000 ≤ n && n ≤ 0x200a) || n == 0x2028 || n == 0x2029 || n == 0x202f || n == 0x205f
    || n == 0x3000

end RouteAtlas.Text
