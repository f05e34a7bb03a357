/-! Sets of characters beyond ASCII, given as ranges of their numbers. -/

namespace ReadAhead
namespace Text

/-- Ranges of numbers of characters, both ends included. -/
abbrev Ranges := List (Nat × Nat)

/-- Whether a character lies in one of the ranges. -/
def Ranges.has (ranges : Ranges) (c : Char) : Bool :=
  ranges.any fun (low, high) => low ≤ c.toNat && c.toNat ≤ high

end Text
end ReadAhead
