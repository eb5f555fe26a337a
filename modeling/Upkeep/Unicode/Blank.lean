import Upkeep.Unicode.Range

/-!
The White_Space property.  It is the only notion of blank in this library:
trimming, line classification and every gap in a declaration use it.
-/

namespace Upkeep.Unicode

/-- The code points with the White_Space property. -/
def blankRanges : RangeTable :=
  [(0x9, 0xD), (0x20, 0x20), (0x85, 0x85), (0xA0, 0xA0), (0x1680, 0x1680),
   (0x2000, 0x200A), (0x2028, 0x2029), (0x202F, 0x202F), (0x205F, 0x205F), (0x3000, 0x3000)]

/-- Whether a character has the White_Space property. -/
def isBlank (c : Char) : Bool :=
  blankRanges.covers c.toNat

end Upkeep.Unicode
