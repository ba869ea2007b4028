import Reckoner.Unicode.Ranges

/-! # Blank characters

The characters with the Unicode property White_Space. They separate words and
tokens and otherwise mean nothing. -/

namespace Reckoner.Unicode

/-- The ranges of the property White_Space. -/
def blank : Ranges := [
  (0x9, 0xd), (0x20, 0x20), (0x85, 0x85), (0xa0, 0xa0), (0x1680, 0x1680), (0x2000, 0x200a),
  (0x2028, 0x2029), (0x202f, 0x202f), (0x205f, 0x205f), (0x3000, 0x3000)]

def isBlank (c : Char) : Bool :=
  blank.contains c

end Reckoner.Unicode
