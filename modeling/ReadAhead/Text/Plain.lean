import ReadAhead.Text.Assigned
import ReadAhead.Text.Mark

/-! Which characters show as themselves in quoted text: those that are assigned, are no control, format or
    separator character and no filler, and do not extend the character before them. -/

namespace ReadAhead
namespace Text

/-- Separators, format characters and fillers beyond ASCII. -/
def hidden : Ranges :=
  [(0xA0, 0xA0), (0xAD, 0xAD), (0x600, 0x605), (0x61C, 0x61C), (0x6DD, 0x6DD), (0x70F, 0x70F),
   (0x890, 0x891), (0x8E2, 0x8E2), (0x115F, 0x1160), (0x1680, 0x1680), (0x180E, 0x180E), (0x2000, 0x200F),
   (0x2028, 0x202F), (0x205F, 0x2064), (0x2066, 0x206F), (0x3000, 0x3000), (0x3164, 0x3164),
   (0xFEFF, 0xFEFF), (0xFFA0, 0xFFA0), (0xFFF9, 0xFFFB), (0x110BD, 0x110BD), (0x110CD, 0x110CD),
   (0x13430, 0x1343F), (0x1BCA0, 0x1BCA3), (0x1D173, 0x1D17A), (0xE0001, 0xE0001), (0xE0020, 0xE007F)]

/-- Whether a character shows as itself in quoted text. -/
def isPlain (c : Char) : Bool :=
  if c.toNat < 0x80 then decide (0x20 ≤ c.toNat ∧ c.toNat ≠ 0x7F)
  else isAssigned c && !hidden.has c && !isExtender c

end Text
end ReadAhead
