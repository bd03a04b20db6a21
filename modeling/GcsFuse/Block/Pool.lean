import Mathlib.Data.List.Basic
/-!
# Prefetch blocks and the block pool

`internal/block`: the `prefetchMemoryBlock` a buffered reader downloads
one piece of an object into, and the `GenBlockPool` that hands blocks out
and takes them back.

A block is a buffer of the pool's block size: `buffer` holds the bytes
downloaded so far, so its length is `Size()`. A block knows where in the
object it belongs (`absStartOff`, `-1` until it is placed), the status
its download ends with, and how many data slices handed to the kernel
still point into it. The pool keeps released blocks in `freeBlocksCh`, a
channel of capacity `maxBlocks`, and creates a block only while fewer than
`maxBlocks` exist: past the reserved blocks, each new one takes a permit
of the semaphore shared by all readers.

Blocks are values on a heap owned by the caller: the pool, and everyone
else, names a block by its index there. A panic of the Go code is `none`.
-/

namespace GcsFuse

namespace Block

/-- `BlockState`: what a block's download ended with, once it ended. -/
inductive BlockState
  | inProgress
  | downloaded
  | downloadFailed
  deriving DecidableEq, Repr

/-- A `prefetchMemoryBlock`. `absStartOff` is `none` for the `-1` of a
block not yet placed; `state` is the status `NotifyReady` sent, which
`AwaitReady` reports. -/
structure PrefetchBlock where
  buffer : List UInt8
  absStartOff : Option ℕ
  state : BlockState
  refCount : ℕ
  deriving DecidableEq, Repr

namespace PrefetchBlock

/-- `createPrefetchBlock`, and `Reuse` of a released block: empty, not
placed, in progress, with no reference. -/
def create : PrefetchBlock := ⟨[], none, .inProgress, 0⟩

/-- `Size`: the bytes downloaded. -/
def size (b : PrefetchBlock) : ℕ := b.buffer.length

/-- `SetAbsStartOff`: a block is placed once; `none` is its error. -/
def setAbsStartOff (b : PrefetchBlock) (startOff : ℕ) : Option PrefetchBlock :=
  if b.absStartOff.isSome then none else some { b with absStartOff := some startOff }

/-- `IncRef`. -/
def incRef (b : PrefetchBlock) : PrefetchBlock := { b with refCount := b.refCount + 1 }

/-- `DecRef`: whether the count reached zero. Below zero it panics. -/
def decRef (b : PrefetchBlock) : Option (PrefetchBlock × Bool) :=
  if b.refCount = 0 then none
  else some ({ b with refCount := b.refCount - 1 }, b.refCount - 1 = 0)

/-- `ReadAtSlice`: the bytes from `off` on, at most `size` of them, and
whether the block ran out first (`io.EOF`); `none` is the error of an
offset outside the downloaded bytes. -/
def readAtSlice (b : PrefetchBlock) (off size : ℕ) : Option (List UInt8 × Bool) :=
  if b.size ≤ off then none
  else if b.size < off + size then some (b.buffer.drop off, true)
  else some ((b.buffer.drop off).take size, false)

/-- A block holding the bytes `[start, start + m)` of an object slices
the object from `start + off`. -/
theorem readAtSlice_range' {b : PrefetchBlock} {f : ℕ → UInt8} {start m off n : ℕ}
    (hb : b.buffer = (List.range' start m).map f) (hoff : off < m) :
    b.readAtSlice off n =
      some ((List.range' (start + off) (min n (m - off))).map f, decide (m < off + n)) := by
  have hsize : b.size = m := by simp [size, hb]
  unfold readAtSlice
  rw [hsize, if_neg (by omega)]
  split
  · rename_i hlt
    rw [hb, ← List.map_drop, List.drop_range', Nat.mul_one, Nat.min_eq_right (by omega),
      decide_eq_true hlt]
  · rename_i hge
    rw [hb, ← List.map_drop, ← List.map_take, List.drop_range', Nat.mul_one,
      List.take_range'_of_length_ge (by omega), Nat.min_eq_left (by omega), decide_eq_false hge]

end PrefetchBlock

/-- A `GenBlockPool`, its blocks named by their index on the heap. -/
structure GenBlockPool where
  freeBlocksCh : List ℕ
  maxBlocks : ℕ
  totalBlocks : ℕ
  reservedBlocks : ℕ
  deriving DecidableEq, Repr

namespace GenBlockPool

/-- `NewGenBlockPool` with the semaphore's free permits: the pool, and
the permits left once the reserved blocks took theirs. -/
def new (blockSize maxBlocks reservedBlocks globalPermits : ℕ) : Option (GenBlockPool × ℕ) :=
  if blockSize = 0 ∨ maxBlocks = 0 then none
  else if maxBlocks < reservedBlocks then none
  else if globalPermits < reservedBlocks then none
  else some (⟨[], maxBlocks, 0, reservedBlocks⟩, globalPermits - reservedBlocks)

/-- A new pool has created no block yet. -/
theorem new_eq_some {blockSize maxBlocks reservedBlocks globalPermits permits : ℕ} {p : GenBlockPool}
    (h : new blockSize maxBlocks reservedBlocks globalPermits = some (p, permits)) :
    p.freeBlocksCh = [] ∧ p.totalBlocks = 0 := by
  unfold new at h
  split_ifs at h
  cases h
  exact ⟨rfl, rfl⟩

/-- `canAllocateBlock`: the permits left when a block may be created. -/
def canAllocateBlock (p : GenBlockPool) (globalPermits : ℕ) : Option ℕ :=
  if p.maxBlocks ≤ p.totalBlocks then none
  else if p.totalBlocks < p.reservedBlocks then some globalPermits
  else if 0 < globalPermits then some (globalPermits - 1)
  else none

/-- A pool creates a block only below `maxBlocks`. -/
theorem lt_of_canAllocateBlock {p : GenBlockPool} {globalPermits k : ℕ}
    (h : p.canAllocateBlock globalPermits = some k) : p.totalBlocks < p.maxBlocks := by
  unfold canAllocateBlock at h
  split at h
  · cases h
  · omega

/-- What `canAllocateBlock` takes: one permit, once the reserved blocks
exist. Counted as `max reservedBlocks totalBlocks`, the permits taken and
left stay balanced as the new block is counted. -/
theorem canAllocateBlock_eq_some {p : GenBlockPool} {globalPermits k : ℕ}
    (h : p.canAllocateBlock globalPermits = some k) :
    k + max p.reservedBlocks (p.totalBlocks + 1) = globalPermits + max p.reservedBlocks p.totalBlocks := by
  unfold canAllocateBlock at h
  split_ifs at h with hmax hres hpos <;> cases h <;> omega

/-- `TryGet` on the heap `blocks`: a released block, reset by `Reuse`, or
a new one at the end of the heap; then the pool, the heap, the permits
left and the block. `none` is `CantAllocateAnyBlockError`. -/
def tryGet (p : GenBlockPool) (blocks : List PrefetchBlock) (globalPermits : ℕ) :
    Option (GenBlockPool × List PrefetchBlock × ℕ × ℕ) :=
  match p.freeBlocksCh with
  | b :: rest => some ({ p with freeBlocksCh := rest }, blocks.set b .create, globalPermits, b)
  | [] =>
    (p.canAllocateBlock globalPermits).map fun permits =>
      ({ p with totalBlocks := p.totalBlocks + 1 }, blocks ++ [.create], permits, blocks.length)

/-- What `TryGet` hands out: the head of the free channel, reset, or a new
block at the end of the heap while fewer than `maxBlocks` exist. -/
theorem tryGet_eq_some {p p' : GenBlockPool} {blocks blocks' : List PrefetchBlock}
    {globalPermits permits b : ℕ} (h : p.tryGet blocks globalPermits = some (p', blocks', permits, b)) :
    (p.freeBlocksCh = b :: p'.freeBlocksCh ∧ blocks' = blocks.set b .create ∧
      p' = { p with freeBlocksCh := p'.freeBlocksCh }) ∨
    (p.freeBlocksCh = [] ∧ blocks' = blocks ++ [.create] ∧ b = blocks.length ∧
      p.totalBlocks < p.maxBlocks ∧ p' = { p with totalBlocks := p.totalBlocks + 1 }) := by
  unfold tryGet at h
  split at h
  · rename_i b' rest hfree
    simp only [Option.some.injEq, Prod.mk.injEq] at h
    obtain ⟨rfl, rfl, -, rfl⟩ := h
    exact .inl ⟨hfree, rfl, rfl⟩
  · rename_i hfree
    cases hc : p.canAllocateBlock globalPermits with
    | none => simp [hc] at h
    | some k =>
      simp only [hc, Option.map_some, Option.some.injEq, Prod.mk.injEq] at h
      obtain ⟨rfl, rfl, -, rfl⟩ := h
      exact .inr ⟨hfree, rfl, rfl, lt_of_canAllocateBlock hc, rfl⟩

/-- `TryGet` (and `Get`, where it returns) with whether `createBlockFunc`
succeeds when it is called: as `tryGet`, except that a failed creation
returns its error with the pool and heap as they were, after
`canAllocateBlock` took its permit. The block is `none` on that error. -/
def tryGetWith (p : GenBlockPool) (blocks : List PrefetchBlock) (globalPermits : ℕ) (created : Bool) :
    Option (GenBlockPool × List PrefetchBlock × ℕ × Option ℕ) :=
  match p.freeBlocksCh with
  | b :: rest => some ({ p with freeBlocksCh := rest }, blocks.set b .create, globalPermits, some b)
  | [] =>
    (p.canAllocateBlock globalPermits).map fun permits =>
      if created then ({ p with totalBlocks := p.totalBlocks + 1 }, blocks ++ [.create], permits, some blocks.length)
      else (p, blocks, permits, none)

theorem tryGetWith_cons {p : GenBlockPool} {b : ℕ} {rest : List ℕ} (hfree : p.freeBlocksCh = b :: rest)
    (blocks : List PrefetchBlock) (globalPermits : ℕ) (created : Bool) :
    p.tryGetWith blocks globalPermits created =
      some ({ p with freeBlocksCh := rest }, blocks.set b .create, globalPermits, some b) := by
  unfold tryGetWith
  rw [hfree]

theorem tryGetWith_nil {p : GenBlockPool} (hfree : p.freeBlocksCh = [])
    (blocks : List PrefetchBlock) (globalPermits : ℕ) (created : Bool) :
    p.tryGetWith blocks globalPermits created =
      (p.canAllocateBlock globalPermits).map fun permits =>
        if created then ({ p with totalBlocks := p.totalBlocks + 1 }, blocks ++ [.create], permits, some blocks.length)
        else (p, blocks, permits, none) := by
  unfold tryGetWith
  rw [hfree]

/-- With a creation that succeeds, `tryGetWith` is `tryGet`. -/
theorem tryGetWith_true (p : GenBlockPool) (blocks : List PrefetchBlock) (globalPermits : ℕ) :
    p.tryGetWith blocks globalPermits true =
      (p.tryGet blocks globalPermits).map fun r => (r.1, r.2.1, r.2.2.1, some r.2.2.2) := by
  unfold tryGetWith tryGet
  split
  · rfl
  · cases p.canAllocateBlock globalPermits <;> rfl

/-- `Release`: into the free channel; a full channel panics. -/
def release (p : GenBlockPool) (b : ℕ) : Option GenBlockPool :=
  if p.freeBlocksCh.length < p.maxBlocks then some { p with freeBlocksCh := p.freeBlocksCh ++ [b] }
  else none

/-- The loop of `ClearFreeBlockChannel`: each free block is deallocated
and gives back its permit unless it is one of the reserved. -/
def clearLoop (reservedBlocks : ℕ) : List ℕ → ℕ → ℕ → ℕ
  | [], _, permits => permits
  | _ :: rest, totalBlocks, permits =>
    clearLoop reservedBlocks rest (totalBlocks - 1)
      (if reservedBlocks < totalBlocks then permits + 1 else permits)

/-- `ClearFreeBlockChannel(true)`: the permits free afterwards. -/
def clearFreeBlockChannel (p : GenBlockPool) (globalPermits : ℕ) : ℕ :=
  clearLoop p.reservedBlocks p.freeBlocksCh p.totalBlocks globalPermits + p.reservedBlocks

/-- The loop gives back a permit for each block it deallocates while more
than the reserved blocks exist. -/
theorem clearLoop_eq_add_min (reservedBlocks : ℕ) : ∀ (l : List ℕ) (totalBlocks permits : ℕ),
    l.length ≤ totalBlocks →
      clearLoop reservedBlocks l totalBlocks permits = permits + min l.length (totalBlocks - reservedBlocks)
  | [], _, _, _ => by simp [clearLoop]
  | _ :: rest, totalBlocks, permits, hlen => by
    rw [List.length_cons] at hlen
    rw [clearLoop, clearLoop_eq_add_min reservedBlocks rest (totalBlocks - 1) _ (by omega),
      List.length_cons]
    split_ifs <;> omega

/-- `ClearFreeBlockChannel(releaseReservedBlocks)` when every `Deallocate`
succeeds: the pool without its free blocks, and the permits free
afterwards. -/
def clear (p : GenBlockPool) (releaseReservedBlocks : Bool) (globalPermits : ℕ) : GenBlockPool × ℕ :=
  let permits := clearLoop p.reservedBlocks p.freeBlocksCh p.totalBlocks globalPermits
  ({ p with freeBlocksCh := [], totalBlocks := p.totalBlocks - p.freeBlocksCh.length },
    if releaseReservedBlocks then permits + p.reservedBlocks else permits)

theorem clear_true_snd (p : GenBlockPool) (globalPermits : ℕ) :
    (p.clear true globalPermits).2 = p.clearFreeBlockChannel globalPermits := rfl

end GenBlockPool

end Block

end GcsFuse
