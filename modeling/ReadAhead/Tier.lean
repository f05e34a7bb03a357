/-! How large a ring a file gets. The policy maps a file size to a tier: a ring capacity out of a small
    fixed set, and the margin of bytes that are fetched behind the target of a seek. -/

namespace ReadAhead

/-- A ring capacity and the bytes fetched behind a seek target. -/
structure Tier where
  capacity : Nat
  margin : Nat
  deriving DecidableEq, Repr, Inhabited

namespace Tier

/-- A tier whose margin is kept below its capacity, so that a ring just reset can hold the target. -/
def of (capacity margin : Nat) : Tier := ⟨capacity, min margin (capacity - 1)⟩

end Tier

/-- A step of the tier table: files up to `maxFileSize` bytes get rings of `capacity` bytes. -/
structure TierRule where
  maxFileSize : Nat
  capacity : Nat
  deriving DecidableEq, Repr

/-- The table from file sizes to tiers. -/
structure TierPolicy where
  rules : List TierRule
  /-- The capacity for files larger than every rule allows. -/
  fallbackCapacity : Nat
  /-- The margin is the capacity divided by this, … -/
  marginDivisor : Nat
  /-- … but at most this. -/
  maxMargin : Nat
  deriving DecidableEq, Repr

namespace TierPolicy

def kibi : Nat := 1024
def mebi : Nat := 1024 * kibi
def gibi : Nat := 1024 * mebi

/-- Rings of 1, 4 and 16 MiB for files up to 16 MiB, 256 MiB and 4 GiB, and of 32 MiB above. -/
def standard : TierPolicy where
  rules := [⟨16 * mebi, mebi⟩, ⟨256 * mebi, 4 * mebi⟩, ⟨4 * gibi, 16 * mebi⟩]
  fallbackCapacity := 32 * mebi
  marginDivisor := 16
  maxMargin := mebi

/-- The policy with another table, put in order of file size; rules of one size keep their order. -/
def withRules (p : TierPolicy) (rules : List TierRule) : TierPolicy :=
  { p with rules := rules.mergeSort fun a b => a.maxFileSize ≤ b.maxFileSize }

/-- The first rule of the least file size among those that admit `fileSize`. -/
def ruleFor (p : TierPolicy) (fileSize : Nat) : Option TierRule :=
  (p.rules.filter fun r => fileSize ≤ r.maxFileSize).foldl
    (fun best r => match best with
      | none => some r
      | some b => if r.maxFileSize < b.maxFileSize then some r else some b)
    none

/-- The margin that goes with a capacity. A divisor of zero counts as one. -/
def marginFor (p : TierPolicy) (capacity : Nat) : Nat :=
  min (capacity / max p.marginDivisor 1) p.maxMargin

def tierFor (p : TierPolicy) (fileSize : Nat) : Tier :=
  let capacity := ((p.ruleFor fileSize).map TierRule.capacity).getD p.fallbackCapacity
  Tier.of capacity (p.marginFor capacity)

/-- Every capacity the policy can pick, each once, the least first. -/
def capacities (p : TierPolicy) : List Nat :=
  ((p.rules.map TierRule.capacity ++ [p.fallbackCapacity]).mergeSort).eraseReps

end TierPolicy
end ReadAhead
