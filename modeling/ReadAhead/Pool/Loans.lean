import ReadAhead.Pool

/-! A pool together with the buffers out on loan, each under the number of its holder. -/

namespace ReadAhead

/-- A pool and who holds which of its buffers. -/
structure Loans where
  pool : Pool
  held : List (Nat × Buffer)
  deriving DecidableEq

namespace Loans

/-- A pool with nothing on loan. -/
def of (pool : Pool) : Loans := ⟨pool, []⟩

/-- The buffer that `holder` has. -/
def holding? (l : Loans) (holder : Nat) : Option Buffer := l.held.lookup holder

/-- Gives the buffer of `holder` back, and says whether there was one. -/
def release (l : Loans) (holder : Nat) : Bool × Loans :=
  match l.holding? holder with
  | none => (false, l)
  | some b => (true, ⟨l.pool.release b, l.held.filter fun h => h.1 != holder⟩)

/-- Lends a buffer to `holder`. One that the holder already has goes back after the new one is taken. -/
def acquire (l : Loans) (holder : Nat) : Buffer × Loans :=
  let (b, pool) := l.pool.acquire
  let (_, rest) := release { l with pool } holder
  (b, { rest with held := (holder, b) :: rest.held })

/-- Fills the buffer of `holder` with one byte, and shows it. -/
def fill (l : Loans) (holder : Nat) (byte : UInt8) : Option Buffer × Loans :=
  match l.holding? holder with
  | none => (none, l)
  | some b =>
    let b := b.fill byte
    (some b, { l with held := (holder, b) :: l.held.filter fun h => h.1 != holder })

end Loans

/-- The shared pools, one for each length asked for so far. -/
structure SharedPools where
  pools : List Loans
  deriving DecidableEq

namespace SharedPools

/-- No length has been asked for. -/
def empty : SharedPools := ⟨[]⟩

/-- The pool for buffers of `len` bytes, made when first asked for. -/
def poolFor (s : SharedPools) (len : Nat) : Loans × SharedPools :=
  match s.pools.find? fun l => l.pool.len == len with
  | some l => (l, s)
  | none =>
    let l := Loans.of (Pool.empty len (Pool.idleLimit len))
    (l, ⟨l :: s.pools⟩)

/-- The shared pools with `l` in the place of the pool of its length. -/
def put (s : SharedPools) (l : Loans) : SharedPools :=
  ⟨s.pools.map fun m => if m.pool.len == l.pool.len then l else m⟩

end SharedPools
end ReadAhead
