/-! Numbers of 64 bits. -/

namespace ReadAhead

/-- One more than the largest number of 64 bits. -/
def wordBound : Nat := 0x10000000000000000

/-- The number, or the largest one of 64 bits if it takes more. -/
def clampWord (n : Nat) : Nat := min n (wordBound - 1)

end ReadAhead
