import Mathlib.Data.List.Perm.Subperm
import ReadAhead.Pool.Loans
import ReadAhead.Total

/-! Pools of buffers and their holders, used in any order. Every buffer that a pool has made is in one place at most
    (`Conserved.apart`), and those that wait are piled in the order in which they were given back (`Piled`): who asks
    for one gets the last that was given back and still waits, as it was given back. The steps of an operation are
    taken one by one, with the buffer that is in neither place between them in hand. -/

namespace ReadAhead

theorem length_le_of_nodup_of_lt {l : List Nat} {n : Nat} (h : l.Nodup) (hlt : ∀ x ∈ l, x < n) : l.length ≤ n := by
  have hsub : l.Subperm (List.range n) := List.subperm_of_subset h fun x hx => List.mem_range.mpr (hlt x hx)
  have hle := hsub.length_le
  rwa [List.length_range] at hle

theorem Bytes.toList_zeros (n : Nat) : (Bytes.zeros n).data.toList = List.replicate n 0 := by
  induction n using Nat.strongRecOn with
  | _ n ih =>
    rw [zeros]
    split
    · simp_all
    · have hhalf := ih (n / 2) (by omega)
      split
      · rw [ByteArray.data_append, Array.toList_append, hhalf, List.replicate_append_replicate]
        congr 1
        omega
      · rw [ByteArray.data_push, Array.toList_push, ByteArray.data_append, Array.toList_append, hhalf,
          List.replicate_append_replicate, ← List.replicate_succ']
        congr 1
        omega

namespace Buffer
variable {b : Buffer}

/-- The buffer with `data` laid over its bytes from `offset` on. -/
def overwrite (b : Buffer) (offset : Nat) (data : ByteArray) : Buffer :=
  { b with written := some (Bytes.overlay b.bytes offset data) }

/-- The buffer is one of the first `made` of a pool of buffers of `len` bytes. -/
def Fits (b : Buffer) (len made : Nat) : Prop := b.serial < made ∧ b.len = len ∧ b.bytes.size = len

theorem Fits.mono {len made more : Nat} (h : b.Fits len made) (hle : made ≤ more) : b.Fits len more :=
  ⟨Nat.lt_of_lt_of_le h.1 hle, h.2⟩

theorem Fits.fill {len made : Nat} (h : b.Fits len made) (byte : UInt8) : (b.fill byte).Fits len made :=
  ⟨h.1, h.2.1, (Bytes.size_ofFn _ _).trans h.2.1⟩

theorem Fits.overwrite {len made offset : Nat} {data : ByteArray} (h : b.Fits len made)
    (hdata : offset + data.size ≤ b.len) : (b.overwrite offset data).Fits len made := by
  obtain ⟨hserial, hlen, hsize⟩ := h
  have hbytes : offset + data.size ≤ b.bytes.size := by rwa [hsize, ← hlen]
  exact ⟨hserial, hlen, (Bytes.size_overlay hbytes).trans hsize⟩

/-- A buffer that nobody wrote to. -/
theorem fits_fresh (len made : Nat) : Fits ⟨made, len, none⟩ len (made + 1) :=
  ⟨Nat.lt_succ_self made, rfl, Bytes.size_zeros len⟩

end Buffer

/-! ### What waits -/

/-- The buffers `idle` wait, in the order in which they were given back: `returned` has all that were given back, the
    last one first. -/
inductive Piled : List Buffer → List Buffer → Prop
  | nil : Piled [] []
  /-- Dropped, or lent again since. -/
  | gone {b : Buffer} {idle returned : List Buffer} (h : Piled idle returned)
    (hb : b.serial ∉ idle.map Buffer.serial) : Piled idle (b :: returned)
  | waits {b : Buffer} {idle returned : List Buffer} (h : Piled idle returned)
    (hb : b.serial ∉ idle.map Buffer.serial) : Piled (b :: idle) (b :: returned)

namespace Piled
variable {b : Buffer} {idle returned : List Buffer}

/-- Whether a buffer of this number waits. -/
def isWaiting (idle : List Buffer) (b : Buffer) : Bool := idle.any fun x => x.serial == b.serial

theorem isWaiting_iff : isWaiting idle b = true ↔ b.serial ∈ idle.map Buffer.serial := by
  rw [isWaiting, List.any_eq_true, List.mem_map]
  exact exists_congr fun x => and_congr_right fun _ => beq_iff_eq

/-- The top of the pile was given back last of all that wait. -/
theorem find?_eq (h : Piled (b :: idle) returned) : returned.find? (isWaiting (b :: idle)) = some b := by
  generalize hpile : b :: idle = pile at h
  induction h with
  | nil => cases hpile
  | gone h hb ih =>
    rw [List.find?_cons_of_neg (fun hwaits => hb (isWaiting_iff.mp hwaits))]
    exact ih hpile
  | waits h hb =>
    obtain ⟨rfl, rfl⟩ := List.cons.inj hpile
    exact List.find?_cons_of_pos (isWaiting_iff.mpr List.mem_cons_self)

/-- The top of the pile is taken. -/
theorem pop (h : Piled (b :: idle) returned) : Piled idle returned := by
  generalize hpile : b :: idle = pile at h
  induction h with
  | nil => cases hpile
  | gone h hb ih =>
    subst hpile
    exact (ih rfl).gone fun hmem => hb (List.mem_cons_of_mem _ hmem)
  | waits h hb =>
    obtain ⟨rfl, rfl⟩ := List.cons.inj hpile
    exact h.gone hb

end Piled

/-! ### Operations -/

namespace Loans
variable {l : Loans} {b c : Buffer} {holder len maxIdle acquires : Nat} {lent returned hand : List Buffer}

/-- Lays `data` over the bytes of the buffer of `holder`, if there is room. -/
def write (l : Loans) (holder offset : Nat) (data : ByteArray) : Loans :=
  match l.holding? holder with
  | none => l
  | some b =>
    if offset + data.size ≤ b.len then
      { l with held := (holder, b.overwrite offset data) :: l.held.filter fun h => h.1 != holder }
    else l

/-- What holders do. -/
inductive Op
  | acquire (holder : Nat)
  | fill (holder : Nat) (byte : UInt8)
  | write (holder offset : Nat) (data : ByteArray)
  | release (holder : Nat)
  deriving DecidableEq

namespace Op

def isAcquire : Op → Bool
  | .acquire _ => true
  | _ => false

def perform (l : Loans) : Op → Loans
  | .acquire holder => (l.acquire holder).2
  | .fill holder byte => (l.fill holder byte).2
  | .write holder offset data => l.write holder offset data
  | .release holder => (l.release holder).2

/-- What is lent. -/
def lends (l : Loans) : Op → List Buffer
  | .acquire holder => [(l.acquire holder).1]
  | _ => []

/-- What is given back: what the holder has, who asks for another or for none. -/
def returns (l : Loans) : Op → List Buffer
  | .acquire holder | .release holder => (l.holding? holder).toList
  | .fill .. | .write .. => []

end Op

/-- A pool and its holders with what was lent and given back so far, the last one first. -/
structure Record where
  loans : Loans
  lent : List Buffer
  returned : List Buffer

/-- What comes of one operation more. -/
def Record.step (r : Record) (op : Op) : Record :=
  ⟨op.perform r.loans, op.lends r.loans ++ r.lent, op.returns r.loans ++ r.returned⟩

/-- What comes of operation upon operation. -/
def record (ops : List Op) (l : Loans) : Record := ops.foldl Record.step ⟨l, [], []⟩

/-! ### What every operation keeps -/

/-- The buffers that are held or wait. -/
def buffers (l : Loans) : List Buffer := l.held.map Prod.snd ++ l.pool.idle

/-- After so many loans, with `hand` between a place and the next. -/
structure Conserved (len maxIdle acquires : Nat) (lent returned hand : List Buffer) (l : Loans) : Prop where
  len_eq : l.pool.len = len
  maxIdle_eq : l.pool.maxIdle = maxIdle
  counted : l.pool.allocated + l.pool.reused = acquires
  /-- Nobody holds two. -/
  holders : (l.held.map Prod.fst).Nodup
  /-- No buffer is in two places. -/
  apart : ((hand ++ l.buffers).map Buffer.serial).Nodup
  fits : ∀ b ∈ hand ++ l.buffers, b.Fits len l.pool.allocated
  lent_made : ∀ b ∈ lent, b.serial < l.pool.allocated
  few : l.pool.idle.length ≤ maxIdle
  piled : Piled l.pool.idle returned

theorem conserved_of_empty (len maxIdle : Nat) : Conserved len maxIdle 0 [] [] [] (of (Pool.empty len maxIdle)) where
  len_eq := rfl
  maxIdle_eq := rfl
  counted := rfl
  holders := .nil
  apart := .nil
  fits := nofun
  lent_made := nofun
  few := Nat.zero_le _
  piled := .nil

/-- What a holder has, and what the others have. -/
theorem perm_of_holding? (hholders : (l.held.map Prod.fst).Nodup) (hb : l.holding? holder = some b) :
    l.held.Perm ((holder, b) :: l.held.filter fun h => h.1 != holder) := by
  unfold holding? at hb
  generalize l.held = held at hholders hb
  induction held with
  | nil => cases hb
  | cons entry held ih =>
    obtain ⟨other, c⟩ := entry
    rw [List.map_cons, List.nodup_cons] at hholders
    obtain ⟨hother, hrest⟩ := hholders
    by_cases hsame : holder = other
    · subst hsame
      rw [List.lookup_cons_self] at hb
      obtain rfl := Option.some.inj hb
      have hkeep : (held.filter fun h => h.1 != holder) = held := by
        refine List.filter_eq_self.mpr fun entry hentry => bne_iff_ne.mpr fun heq => hother ?_
        exact List.mem_map.mpr ⟨entry, hentry, heq⟩
      rw [List.filter_cons_of_neg (by simp), hkeep]
    · have hlookup : held.lookup holder = some b := by
        rw [List.lookup_cons, beq_false_of_ne hsame] at hb
        exact hb
      have hkept : (((other, c) :: held).filter fun h => h.1 != holder) =
          (other, c) :: held.filter fun h => h.1 != holder :=
        List.filter_cons_of_pos (bne_iff_ne.mpr (Ne.symm hsame))
      rw [hkept]
      exact ((ih hrest hlookup).cons (other, c)).trans (List.Perm.swap _ _ _)

theorem notMem_holders_filter (holder : Nat) :
    holder ∉ (l.held.filter fun h => h.1 != holder).map Prod.fst := by
  intro hmem
  obtain ⟨entry, hentry, rfl⟩ := List.mem_map.mp hmem
  exact bne_iff_ne.mp (List.mem_filter.mp hentry).2 rfl

end Loans

namespace Pool
variable {p : Pool} {b : Buffer} {idle : List Buffer}

theorem acquire_of_cons (h : p.idle = b :: idle) : p.acquire = (b, { p with idle, reused := p.reused + 1 }) := by
  unfold acquire
  rw [h]

theorem acquire_of_nil (h : p.idle = []) :
    p.acquire = (⟨p.allocated, p.len, none⟩, { p with allocated := p.allocated + 1 }) := by
  unfold acquire
  rw [h]

theorem idle_acquire (p : Pool) : p.acquire.2.idle = p.idle.tail := by
  cases hidle : p.idle with
  | nil =>
    rw [acquire_of_nil hidle]
    exact hidle
  | cons b idle =>
    rw [acquire_of_cons hidle]
    rfl

theorem release_cases (p : Pool) (b : Buffer) :
    (p.idle.length < p.maxIdle ∧ p.release b = { p with idle := b :: p.idle }) ∨
      (p.maxIdle ≤ p.idle.length ∧ p.release b = p) := by
  by_cases hroom : p.idle.length < p.maxIdle
  · exact Or.inl ⟨hroom, if_pos hroom⟩
  · exact Or.inr ⟨Nat.le_of_not_lt hroom, if_neg hroom⟩

end Pool

namespace Loans
variable {l : Loans} {b c : Buffer} {holder len maxIdle acquires : Nat} {lent returned hand : List Buffer}

theorem release_of_holding? (hb : l.holding? holder = some b) :
    l.release holder = (true, ⟨l.pool.release b, l.held.filter fun h => h.1 != holder⟩) := by
  unfold release
  rw [hb]

theorem release_of_none (hb : l.holding? holder = none) : l.release holder = (false, l) := by
  unfold release
  rw [hb]

namespace Conserved

/-- A buffer is taken out of the pool. -/
theorem take (h : Conserved len maxIdle acquires lent returned [] l) :
    Conserved len maxIdle (acquires + 1) (l.pool.acquire.1 :: lent) returned [l.pool.acquire.1]
      { l with pool := l.pool.acquire.2 } := by
  cases hidle : l.pool.idle with
  | cons b idle =>
    rw [Pool.acquire_of_cons hidle]
    have hperm : (b :: (l.held.map Prod.snd ++ idle)).Perm l.buffers := by
      rw [buffers, hidle]
      exact List.perm_middle.symm
    have hfew : idle.length + 1 ≤ maxIdle := by
      have hle := h.few
      rwa [hidle] at hle
    have hpiled := h.piled
    rw [hidle] at hpiled
    exact
      { len_eq := h.len_eq
        maxIdle_eq := h.maxIdle_eq
        counted := by
          rw [← h.counted]
          rfl
        holders := h.holders
        apart := (hperm.map Buffer.serial).nodup_iff.mpr h.apart
        fits := fun x hx => h.fits x (hperm.mem_iff.mp hx)
        lent_made := fun x hx => by
          rcases List.mem_cons.mp hx with rfl | hx
          · exact (h.fits x (hperm.mem_iff.mp List.mem_cons_self)).1
          · exact h.lent_made x hx
        few := Nat.le_of_succ_le hfew
        piled := hpiled.pop }
  | nil =>
    rw [Pool.acquire_of_nil hidle]
    exact
      { len_eq := h.len_eq
        maxIdle_eq := h.maxIdle_eq
        counted := by
          rw [← h.counted]
          exact Nat.add_right_comm _ _ _
        holders := h.holders
        apart := by
          refine List.nodup_cons.mpr ⟨fun hmem => ?_, h.apart⟩
          obtain ⟨x, hx, hserial⟩ := List.mem_map.mp hmem
          exact Nat.ne_of_lt (h.fits x hx).1 hserial
        fits := fun x hx => by
          rcases List.mem_cons.mp hx with rfl | hx
          · rw [h.len_eq]
            exact Buffer.fits_fresh len _
          · exact (h.fits x hx).mono (Nat.le_succ _)
        lent_made := fun x hx => by
          rcases List.mem_cons.mp hx with rfl | hx
          · exact Nat.lt_succ_self _
          · exact Nat.lt_succ_of_lt (h.lent_made x hx)
        few := h.few
        piled := h.piled }

/-- What a holder has, if anything, goes back. -/
theorem giveBack (h : Conserved len maxIdle acquires lent returned hand l) (holder : Nat) :
    Conserved len maxIdle acquires lent ((l.holding? holder).toList ++ returned) hand (l.release holder).2 ∧
      holder ∉ (l.release holder).2.held.map Prod.fst := by
  cases hb : l.holding? holder with
  | none =>
    rw [release_of_none hb]
    refine ⟨h, fun hmem => ?_⟩
    obtain ⟨entry, hentry, rfl⟩ := List.mem_map.mp hmem
    exact bne_iff_ne.mp (List.lookup_eq_none_iff.mp hb entry hentry) rfl
  | some b =>
    rw [release_of_holding? hb]
    refine ⟨?_, notMem_holders_filter holder⟩
    have hperm : (hand ++ l.buffers).Perm
        (hand ++ ((l.held.filter fun h => h.1 != holder).map Prod.snd ++ b :: l.pool.idle)) := by
      refine List.Perm.append_left hand ?_
      have hheld := ((perm_of_holding? h.holders hb).map Prod.snd).append_right l.pool.idle
      exact hheld.trans List.perm_middle.symm
    have hapart := (hperm.map Buffer.serial).nodup_iff.mp h.apart
    have hfits := fun x hx => h.fits x (hperm.mem_iff.mpr hx)
    have hnew : b.serial ∉ l.pool.idle.map Buffer.serial := by
      rw [List.map_append, List.map_append] at hapart
      have hpile := (List.nodup_append.mp (List.nodup_append.mp hapart).2.1).2.1
      exact (List.nodup_cons.mp hpile).1
    have hholders := h.holders.sublist ((List.filter_sublist (p := fun e => e.1 != holder)).map Prod.fst)
    rcases Pool.release_cases l.pool b with ⟨hroom, hrelease⟩ | ⟨-, hrelease⟩
    · rw [hrelease]
      exact
        { len_eq := h.len_eq
          maxIdle_eq := h.maxIdle_eq
          counted := h.counted
          holders := hholders
          apart := hapart
          fits := hfits
          lent_made := h.lent_made
          few := h.maxIdle_eq ▸ hroom
          piled := h.piled.waits hnew }
    · rw [hrelease]
      have hless : (hand ++ ((l.held.filter fun h => h.1 != holder).map Prod.snd ++ l.pool.idle)).Sublist
          (hand ++ ((l.held.filter fun h => h.1 != holder).map Prod.snd ++ b :: l.pool.idle)) :=
        ((List.sublist_cons_self b _).append_left _).append_left hand
      exact
        { len_eq := h.len_eq
          maxIdle_eq := h.maxIdle_eq
          counted := h.counted
          holders := hholders
          apart := hapart.sublist (hless.map Buffer.serial)
          fits := fun x hx => hfits x (hless.subset hx)
          lent_made := h.lent_made
          few := h.few
          piled := h.piled.gone hnew }

/-- The buffer in hand goes to a holder who has none. -/
theorem handOver (h : Conserved len maxIdle acquires lent returned [b] l) (hnone : holder ∉ l.held.map Prod.fst) :
    Conserved len maxIdle acquires lent returned [] { l with held := (holder, b) :: l.held } where
  len_eq := h.len_eq
  maxIdle_eq := h.maxIdle_eq
  counted := h.counted
  holders := List.nodup_cons.mpr ⟨hnone, h.holders⟩
  apart := h.apart
  fits := h.fits
  lent_made := h.lent_made
  few := h.few
  piled := h.piled

/-- A holder writes to the buffer that it has. -/
theorem rewrite (h : Conserved len maxIdle acquires lent returned [] l) (hb : l.holding? holder = some b)
    (hserial : c.serial = b.serial) (hc : b.Fits len l.pool.allocated → c.Fits len l.pool.allocated) :
    Conserved len maxIdle acquires lent returned []
      { l with held := (holder, c) :: l.held.filter fun h => h.1 != holder } := by
  have hheld := perm_of_holding? h.holders hb
  have hperm : l.buffers.Perm (b :: ((l.held.filter fun h => h.1 != holder).map Prod.snd ++ l.pool.idle)) :=
    (hheld.map Prod.snd).append_right l.pool.idle
  refine ⟨h.len_eq, h.maxIdle_eq, h.counted, ?_, ?_, fun x hx => ?_, h.lent_made, h.few, h.piled⟩
  · exact (hheld.map Prod.fst).nodup_iff.mp h.holders
  · have hapart := (hperm.map Buffer.serial).nodup_iff.mp h.apart
    rw [List.map_cons, ← hserial] at hapart
    exact hapart
  · rcases List.mem_cons.mp hx with rfl | hx
    · exact hc (h.fits b (hperm.mem_iff.mpr List.mem_cons_self))
    · exact h.fits x (hperm.mem_iff.mpr (List.mem_cons_of_mem b hx))

/-- What was lent to `holder` is the buffer that was taken, after what the holder had went back. -/
theorem lend (h : Conserved len maxIdle acquires lent returned [] l) (holder : Nat) :
    Conserved len maxIdle (acquires + 1) ((l.acquire holder).1 :: lent) ((l.holding? holder).toList ++ returned) []
      (l.acquire holder).2 := by
  obtain ⟨hback, hnone⟩ := h.take.giveBack holder
  exact hback.handOver hnone

theorem step {r : Record} (h : Conserved len maxIdle acquires r.lent r.returned [] r.loans) (op : Op) :
    Conserved len maxIdle (acquires + if op.isAcquire then 1 else 0) (r.step op).lent (r.step op).returned []
      (r.step op).loans := by
  cases op with
  | acquire holder => exact h.lend holder
  | release holder => exact (h.giveBack holder).1
  | fill holder byte =>
    show Conserved len maxIdle acquires r.lent r.returned [] (r.loans.fill holder byte).2
    unfold fill
    cases hb : r.loans.holding? holder with
    | none => exact h
    | some b => exact h.rewrite hb rfl fun hfits => hfits.fill byte
  | write holder offset data =>
    show Conserved len maxIdle acquires r.lent r.returned [] (r.loans.write holder offset data)
    unfold write
    cases hb : r.loans.holding? holder with
    | none => exact h
    | some b =>
      simp only
      split
      · exact h.rewrite hb rfl fun hfits => hfits.overwrite ‹_›
      · exact h

theorem run {r : Record} (h : Conserved len maxIdle acquires r.lent r.returned [] r.loans) (ops : List Op) :
    Conserved len maxIdle (acquires + ops.countP Op.isAcquire) (ops.foldl Record.step r).lent
      (ops.foldl Record.step r).returned [] (ops.foldl Record.step r).loans := by
  induction ops generalizing acquires r with
  | nil => exact h
  | cons op ops ih =>
    have hrest := ih (h.step op)
    rwa [Nat.add_assoc, Nat.add_comm (ite _ _ _), ← List.countP_cons] at hrest

end Conserved

theorem conserved_record (len maxIdle : Nat) (ops : List Op) :
    Conserved len maxIdle (ops.countP Op.isAcquire) (record ops (of (Pool.empty len maxIdle))).lent
      (record ops (of (Pool.empty len maxIdle))).returned [] (record ops (of (Pool.empty len maxIdle))).loans := by
  have h := (conserved_of_empty len maxIdle).run (r := ⟨of (Pool.empty len maxIdle), [], []⟩) ops
  rwa [Nat.zero_add] at h

/-! ### What there is for who asks -/

namespace Conserved

/-- Of the buffers that wait the one that was given back last is lent. -/
theorem lends_last (h : Conserved len maxIdle acquires lent returned [] l) (hidle : l.pool.idle ≠ []) (holder : Nat) :
    returned.find? (Piled.isWaiting l.pool.idle) = some (l.acquire holder).1 := by
  obtain ⟨b, idle, hcons⟩ := List.exists_cons_of_ne_nil hidle
  have hpiled := h.piled
  have hlent : (l.acquire holder).1 = b := congrArg Prod.fst (Pool.acquire_of_cons hcons)
  rw [hcons] at hpiled ⊢
  rw [hlent]
  exact hpiled.find?_eq

/-- Where none waits a new one is lent, all zeros. -/
theorem lends_new (h : Conserved len maxIdle acquires lent returned [] l) (hidle : l.pool.idle = []) (holder : Nat) :
    (∀ b ∈ lent, b.serial ≠ (l.acquire holder).1.serial) ∧
      (l.acquire holder).1.bytes.data.toList = List.replicate len 0 := by
  have hlent : (l.acquire holder).1 = ⟨l.pool.allocated, l.pool.len, none⟩ :=
    congrArg Prod.fst (Pool.acquire_of_nil hidle)
  rw [hlent, h.len_eq]
  exact ⟨fun b hb => Nat.ne_of_lt (h.lent_made b hb), Bytes.toList_zeros len⟩

/-- A buffer that is given back waits on top, or is dropped from a full pool. -/
theorem keeps_or_full (h : Conserved len maxIdle acquires lent returned hand l) (hb : l.holding? holder = some b) :
    (l.release holder).2.pool.idle = b :: l.pool.idle ∨
      ((l.release holder).2.pool.idle = l.pool.idle ∧ l.pool.idle.length = maxIdle) := by
  rw [release_of_holding? hb]
  rcases Pool.release_cases l.pool b with ⟨-, hrelease⟩ | ⟨hfull, hrelease⟩
  · rw [hrelease]
    exact Or.inl rfl
  · rw [hrelease]
    exact Or.inr ⟨rfl, Nat.le_antisymm h.few (h.maxIdle_eq ▸ hfull)⟩

/-- The buffers that are held or wait are among those that were made. -/
theorem length_le_allocated (h : Conserved len maxIdle acquires lent returned [] l) :
    l.held.length + l.pool.idle.length ≤ l.pool.allocated := by
  have hle := length_le_of_nodup_of_lt h.apart (n := l.pool.allocated) fun serial hserial => by
    obtain ⟨b, hb, rfl⟩ := List.mem_map.mp hserial
    exact (h.fits b hb).1
  rwa [List.nil_append, List.length_map, buffers, List.length_append, List.length_map] at hle

/-- The bytes of the buffers that wait. -/
theorem idle_bytes (h : Conserved len maxIdle acquires lent returned [] l) :
    total (l.pool.idle.map fun b => b.bytes.size) = l.pool.idle.length * len := by
  refine total_map_const fun b hb => ?_
  have hmem : b ∈ l.buffers := List.mem_append_right _ hb
  exact (h.fits b hmem).2.2

end Conserved
end Loans

/-! ### Shared pools -/

namespace SharedPools
open Loans

/-- One operation more, on the pool of a length. -/
def step (s : SharedPools) (use : Nat × Op) : SharedPools :=
  let (l, s) := s.poolFor use.1
  s.put (use.2.perform l)

/-- Operation upon operation. -/
def after (uses : List (Nat × Op)) : SharedPools := uses.foldl step empty

/-- A pool of the length, bounded as shared pools are, after some operations. -/
def IsShared (len : Nat) (l : Loans) : Prop :=
  ∃ ops, (record ops (Loans.of (Pool.empty len (Pool.idleLimit len)))).loans = l

theorem IsShared.len_eq {len : Nat} {l : Loans} (h : IsShared len l) : l.pool.len = len := by
  obtain ⟨ops, rfl⟩ := h
  exact (conserved_record _ _ ops).len_eq

theorem IsShared.perform {len : Nat} {l : Loans} (h : IsShared len l) (op : Op) : IsShared len (op.perform l) := by
  obtain ⟨ops, rfl⟩ := h
  refine ⟨ops ++ [op], ?_⟩
  rw [record, List.foldl_append]
  rfl

theorem poolFor_shared {s : SharedPools} (h : ∀ l ∈ s.pools, IsShared l.pool.len l) (len : Nat) :
    IsShared len (s.poolFor len).1 ∧ ∀ l ∈ (s.poolFor len).2.pools, IsShared l.pool.len l := by
  unfold poolFor
  split
  · rename_i l hfind
    have hfound := List.find?_some hfind
    have hlen : l.pool.len = len := beq_iff_eq.mp hfound
    exact ⟨hlen ▸ h l (List.mem_of_find?_eq_some hfind), h⟩
  · refine ⟨⟨[], rfl⟩, fun l hl => ?_⟩
    rcases List.mem_cons.mp hl with rfl | hl
    · exact ⟨[], rfl⟩
    · exact h l hl

theorem put_shared {s : SharedPools} {l : Loans} (h : ∀ m ∈ s.pools, IsShared m.pool.len m)
    (hl : IsShared l.pool.len l) : ∀ m ∈ (s.put l).pools, IsShared m.pool.len m := by
  intro m hm
  obtain ⟨old, hold, rfl⟩ := List.mem_map.mp hm
  split
  · exact hl
  · exact h old hold

theorem step_shared {s : SharedPools} (h : ∀ l ∈ s.pools, IsShared l.pool.len l) (use : Nat × Op) :
    ∀ l ∈ (s.step use).pools, IsShared l.pool.len l := by
  obtain ⟨hpool, hrest⟩ := poolFor_shared h use.1
  have hnew := hpool.perform use.2
  exact put_shared hrest (hnew.len_eq.symm ▸ hnew)

theorem shared_after (uses : List (Nat × Op)) : ∀ l ∈ (after uses).pools, IsShared l.pool.len l := by
  have hrun : ∀ (uses : List (Nat × Op)) (s : SharedPools), (∀ l ∈ s.pools, IsShared l.pool.len l) →
      ∀ l ∈ (uses.foldl step s).pools, IsShared l.pool.len l := by
    intro uses
    induction uses with
    | nil => exact fun s h => h
    | cons use uses ih => exact fun s h => ih _ (step_shared h use)
  exact hrun uses empty nofun

theorem idleLimit_mul_le (len : Nat) : Pool.idleLimit len * len ≤ max len Pool.idleBytes := by
  unfold Pool.idleLimit
  split
  · next hzero =>
    rw [hzero]
    exact Nat.zero_le _
  · rcases Nat.le_total (min (Pool.idleBytes / len) Pool.idleCount) 1 with hone | hmore
    · rw [Nat.max_eq_left hone, Nat.one_mul]
      exact Nat.le_max_left _ _
    · rw [Nat.max_eq_right hmore]
      calc min (Pool.idleBytes / len) Pool.idleCount * len
          ≤ Pool.idleBytes / len * len := Nat.mul_le_mul_right len (Nat.min_le_left _ _)
        _ ≤ Pool.idleBytes := Nat.div_mul_le_self _ _
        _ ≤ max len Pool.idleBytes := Nat.le_max_right _ _

end SharedPools

namespace Loans

/-- However the holders of a pool use it: every loan was counted, no buffer is in two places, no more wait than may, and
    no more are held or wait than were made, each of the length of the pool. A buffer that is given back waits, unless
    the pool is full. Who asks gets the buffer that was given back last of those that wait, as it was given back, and a
    new one, all zeros, where none waits. In a shared pool the buffers that wait take no more than 64 MiB, if it is not
    one alone. -/
theorem conserves_buffers (len maxIdle : Nat) (ops : List Op) :
    let r := record ops (of (Pool.empty len maxIdle))
    let l := r.loans
    l.pool.allocated + l.pool.reused = ops.countP Op.isAcquire ∧
      (l.held.map Prod.fst).Nodup ∧ ((l.held.map Prod.snd ++ l.pool.idle).map Buffer.serial).Nodup ∧
      l.pool.idle.length ≤ maxIdle ∧ l.held.length + l.pool.idle.length ≤ l.pool.allocated ∧
      (∀ b ∈ l.held.map Prod.snd ++ l.pool.idle, b.bytes.size = len) ∧
      (∀ holder b, l.holding? holder = some b →
        ((l.release holder).2.pool.idle = b :: l.pool.idle ∨
          ((l.release holder).2.pool.idle = l.pool.idle ∧ l.pool.idle.length = maxIdle)) ∧
        ((l.acquire holder).2.pool.idle = b :: l.pool.idle.tail ∨
          ((l.acquire holder).2.pool.idle = l.pool.idle.tail ∧ l.pool.idle.tail.length = maxIdle))) ∧
      (∀ holder, (l.pool.idle ≠ [] → r.returned.find? (Piled.isWaiting l.pool.idle) = some (l.acquire holder).1) ∧
        (l.pool.idle = [] → (∀ b ∈ r.lent, b.serial ≠ (l.acquire holder).1.serial) ∧
          (l.acquire holder).1.bytes.data.toList = List.replicate len 0)) ∧
      (∀ uses : List (Nat × Op), SharedPools.IsShared len ((SharedPools.after uses).poolFor len).1 ∧
        total (((SharedPools.after uses).poolFor len).1.pool.idle.map fun b => b.bytes.size) ≤ max len Pool.idleBytes) := by
  intro r l
  have h : Conserved len maxIdle (ops.countP Op.isAcquire) r.lent r.returned [] l := conserved_record len maxIdle ops
  refine ⟨h.counted, h.holders, h.apart, h.few, h.length_le_allocated, fun b hb => (h.fits b hb).2.2,
    fun holder b hb => ⟨h.keeps_or_full hb, ?_⟩,
    fun holder => ⟨fun hidle => h.lends_last hidle holder, fun hidle => h.lends_new hidle holder⟩, fun uses => ?_⟩
  · have hkept := h.take.keeps_or_full (l := { l with pool := l.pool.acquire.2 }) hb
    have htail : ({ l with pool := l.pool.acquire.2 } : Loans).pool.idle = l.pool.idle.tail := Pool.idle_acquire l.pool
    rwa [htail] at hkept
  · have hshared := (SharedPools.poolFor_shared (SharedPools.shared_after uses) len).1
    refine ⟨hshared, ?_⟩
    obtain ⟨shared, hshared⟩ := hshared
    have hpool := conserved_record len (Pool.idleLimit len) shared
    rw [hshared] at hpool
    rw [hpool.idle_bytes]
    exact Nat.le_trans (Nat.mul_le_mul_right len hpool.few) (SharedPools.idleLimit_mul_le len)

end Loans
end ReadAhead
