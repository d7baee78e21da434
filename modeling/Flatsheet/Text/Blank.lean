/-!
Blank characters: what separates words and is trimmed from the ends of a text. Line feeds are blank,
and so are the information separators U+001C to U+001F and the Unicode spaces; the zero-width space
is not.
-/

namespace Flatsheet

def isBlank (c : Char) : Bool :=
  let code := c.toNat
  (0x09 ≤ code && code ≤ 0x0d) || (0x1c ≤ code && code ≤ 0x20) || code == 0x85 || code == 0xa0 ||
    code == 0x1680 || (0x2000 ≤ code && code ≤ 0x200a) || code == 0x2028 || code == 0x2029 ||
    code == 0x202f || code == 0x205f || code == 0x3000

end Flatsheet
