import ReadAhead.Word

/-! Spans of time, kept in whole nanoseconds. -/

namespace ReadAhead

/-- A span of time. -/
structure Duration where
  nanos : Nat
  deriving DecidableEq, Repr, Inhabited

namespace Duration

def perSecond : Nat := 1000000000
def perMilli : Nat := 1000000

def ofSeconds (n : Nat) : Duration := ⟨n * perSecond⟩
def ofMillis (n : Nat) : Duration := ⟨n * perMilli⟩

def seconds (d : Duration) : Nat := d.nanos / perSecond
/-- The nanoseconds beyond the whole seconds. -/
def subsecond (d : Duration) : Nat := d.nanos % perSecond
def millis (d : Duration) : Nat := d.nanos / perMilli
/-- Milliseconds, a part of one counted as one. A clock of milliseconds reaches the end of the span after
    so many. -/
def millisUp (d : Duration) : Nat := (d.nanos + (perMilli - 1)) / perMilli

def atMost (d limit : Duration) : Duration := ⟨min d.nanos limit.nanos⟩

/-- The milliseconds after which every wait is over: those of thirty years without leap days. -/
def longestWait : Nat := 946080000000

/-! ### Clocks -/

/-- The first nanosecond that no clock can tell. Clocks count seconds in words with a sign. -/
def clockEnd : Nat := wordBound / 2 * perSecond

/-- When a span is over that begins at `now`, if a clock can tell. -/
def endFrom? (now : Nat) (d : Duration) : Option Nat :=
  if now + d.nanos < clockEnd then some (now + d.nanos) else none

theorem endFrom?_of_lt {now : Nat} {d : Duration} (h : now + d.nanos < clockEnd) :
    d.endFrom? now = some (now + d.nanos) := if_pos h

theorem endFrom?_of_le {now : Nat} {d : Duration} (h : clockEnd ≤ now + d.nanos) : d.endFrom? now = none :=
  if_neg (Nat.not_lt.mpr h)

/-! ### Text -/

/-- The decimal digits of `part / unit` after the point, without zeros at the end. -/
def fraction (part unit : Nat) : List Char :=
  if part = 0 ∨ unit ≤ 1 then []
  else
    let tenth := unit / 10
    Char.ofNat ('0'.toNat + part / tenth) :: fraction (part % tenth) tenth
termination_by unit
decreasing_by omega

/-- `nanos` counted in `unit` nanoseconds, with the fraction that is left. -/
def count (nanos unit : Nat) (name : String) : String :=
  let point := fraction (nanos % unit) unit
  toString (nanos / unit) ++ (if point.isEmpty then "" else "." ++ String.ofList point) ++ name

/-- A span in the largest unit that it reaches: seconds, milliseconds, microseconds or nanoseconds. -/
def text (d : Duration) : String :=
  if perSecond ≤ d.nanos then count d.nanos perSecond "s"
  else if perMilli ≤ d.nanos then count d.nanos perMilli "ms"
  else if 1000 ≤ d.nanos then count d.nanos 1000 "µs"
  else count d.nanos 1 "ns"

end Duration
end ReadAhead
