import GcsFuse.BufferedWrite.Handler
import GcsFuse.Common.Heap
import GcsFuse.Common.Run
import Mathlib.Data.List.Nodup
/-!
# Where the blocks are

A block of the handler's pool is in one place at a time: `current`, the
uploader's hands, the upload channel, or the free channel; a block the
pool deallocated is in none, and no longer mapped. `Inv` says this, with
what the steps need besides: the blocks the uploader has to upload are not
empty, the wait group counts at least them, and a writer appends at the
offset `createObjectWriter` gives it.

The helpers of the model each get one lemma that says what they return
(`get_eq_some`, `upload_eq_some`, `clearLoop_eq`, `drain_eq`, …); the
invariant's proofs only cite those.
-/

namespace GcsFuse

namespace BufferedWrite

open Block

namespace BufferedWriteHandler

variable (s : BufferedWriteHandler)

/-- The blocks the uploader still has to upload, in the order it will. -/
def queued : List ℕ := s.uploading.toList ++ s.uploadCh

/-- Where a block of the pool can be. -/
def places : List ℕ := s.current.toList ++ s.queued ++ s.blockPool.freeBlocksCh

/-- The bytes the GCS writer received. -/
def written : List UInt8 := match s.writer with
  | some w => w.data
  | none => []

variable {cfg : Config} {s} {t u : BufferedWriteHandler}

/-! ## The heap -/

theorem block_of_set {b : ℕ} {x : MemoryBlock} (h : t.blocks = s.blocks.set b x)
    (hb : b < s.blocks.length) (c : ℕ) : t.block c = if b = c then x else s.block c := by
  simp only [block, h]
  exact Heap.getD_set _ _ hb x c

theorem block_of_concat {x : MemoryBlock} (h : t.blocks = s.blocks ++ [x]) (c : ℕ) :
    t.block c = if c = s.blocks.length then x else s.block c := by
  simp only [block, h]
  exact Heap.getD_concat _ _ x c

theorem block_eq_of_length_le {b : ℕ} (hb : s.blocks.length ≤ b) : s.block b = ⟨[], false⟩ :=
  List.getD_eq_default _ _ hb

/-! ## What the helpers return -/

/-- What `Get` returns: the head of the free channel, emptied, or a new
block at the end of the heap while the pool may create one. -/
theorem get_eq_some {created : Bool} {b : ℕ} (h : s.get created = some (t, some b)) :
    (∃ rest, s.blockPool.freeBlocksCh = b :: rest ∧
      t = { s with
        blockPool := { s.blockPool with freeBlocksCh := rest }
        blocks := s.blocks.set b (s.block b).reuse }) ∨
    (s.blockPool.freeBlocksCh = [] ∧ b = s.blocks.length ∧
      s.blockPool.totalBlocks < s.blockPool.maxBlocks ∧
      ∃ permits, t = { s with
        blockPool := { s.blockPool with totalBlocks := s.blockPool.totalBlocks + 1 }
        blocks := s.blocks ++ [.create]
        globalPermits := permits }) := by
  unfold get at h
  split at h
  · rename_i b' rest hfree
    simp only [Option.some.injEq, Prod.mk.injEq] at h
    obtain ⟨rfl, rfl⟩ := h
    exact .inl ⟨rest, hfree, rfl⟩
  · rename_i hfree
    obtain ⟨permits, hc, ht⟩ := Option.map_eq_some_iff.1 h
    split at ht
    · simp only [Prod.mk.injEq, Option.some.injEq] at ht
      obtain ⟨rfl, rfl⟩ := ht
      exact .inr ⟨hfree, rfl, GenBlockPool.lt_of_canAllocateBlock hc, permits, rfl⟩
    · simp at ht

/-- What a failed creation leaves: the handler as it was, but for the
permit `canAllocateBlock` took. -/
theorem get_eq_failed {created : Bool} (h : s.get created = some (t, none)) :
    ∃ permits, t = { s with globalPermits := permits } := by
  unfold get at h
  split at h
  · simp at h
  · obtain ⟨permits, -, ht⟩ := Option.map_eq_some_iff.1 h
    split at ht
    · simp at ht
    · simp only [Prod.mk.injEq] at ht
      exact ⟨permits, ht.1.symm⟩

/-- A turn gets no block only when `Get` fails. -/
theorem currentBlock_eq_failed {created : Bool} (h : s.currentBlock created = some (t, none)) :
    ∃ permits, t = { s with globalPermits := permits } := by
  unfold currentBlock at h
  split at h
  · simp at h
  · exact get_eq_failed h

theorem release_eq_some {b : ℕ} (h : s.release b = some t) :
    s.blockPool.freeBlocksCh.length < s.blockPool.maxBlocks ∧
      t = { s with blockPool := { s.blockPool with
        freeBlocksCh := s.blockPool.freeBlocksCh ++ [b] } } := by
  unfold release GenBlockPool.release at h
  split at h
  · simp only [Option.map_some, Option.some.injEq] at h
    exact ⟨‹_›, h.symm⟩
  · cases h

theorem release_of_lt {b : ℕ} (h : s.blockPool.freeBlocksCh.length < s.blockPool.maxBlocks) :
    s.release b = some { s with blockPool := { s.blockPool with
      freeBlocksCh := s.blockPool.freeBlocksCh ++ [b] } } := by
  simp [release, GenBlockPool.release, h]

theorem done_eq_some (h : s.done = some t) : 0 < s.wg ∧ t = { s with wg := s.wg - 1 } := by
  unfold done at h
  split at h
  · cases h
  · cases h
    exact ⟨by omega, rfl⟩

/-- What `ensureWriter` returns: the handler as it was, with a writer, or
a new writer at `writerOffset`; or the error, with no writer. -/
theorem ensureWriter_eq {ok : Bool} {e : Option WriteError} (h : s.ensureWriter cfg ok = (t, e)) :
    (e = none ∧ s.writer.isSome ∧ t = s) ∨
    (e = none ∧ s.writer = none ∧ t = { s with writer := some ⟨writerOffset cfg, []⟩, cancelled := false }) ∨
    (e = some .ensureWriter ∧ s.writer = none ∧ t = s) := by
  unfold ensureWriter at h
  split at h
  · rename_i w hw
    simp only [Prod.mk.injEq] at h
    exact .inl ⟨h.2.symm, by simp [hw], h.1.symm⟩
  · rename_i hw
    split at h
    · simp only [Prod.mk.injEq] at h
      exact .inr (.inl ⟨h.2.symm, hw, h.1.symm⟩)
    · simp only [Prod.mk.injEq] at h
      exact .inr (.inr ⟨h.2.symm, hw, h.1.symm⟩)

/-- What `Upload` returns: the error of `ensureWriter`, after `wg.Add(1)`
and with no block sent; or, from the handler with its writer, the block
at the end of the channel, which was open and not full. -/
theorem upload_eq_some {b : ℕ} {ok : Bool} {e : Option WriteError}
    (h : s.upload cfg b ok = some (t, e)) :
    (e = some .ensureWriter ∧ s.writer = none ∧ t = { s with wg := s.wg + 1 }) ∨
    (e = none ∧ s.chClosed = false ∧ s.uploadCh.length < cfg.maxBlocksPerFile ∧
      ∃ v, (v = s ∨ (s.writer = none ∧
          v = { s with writer := some ⟨writerOffset cfg, []⟩, cancelled := false })) ∧
        v.writer.isSome ∧
        t = { v with wg := v.wg + 1, uploaderStarted := true, uploadCh := v.uploadCh ++ [b] }) := by
  unfold upload at h
  split at h
  · rename_i v e' hv
    simp only [Option.some.injEq, Prod.mk.injEq] at h
    obtain ⟨rfl, rfl⟩ := h
    rcases ensureWriter_eq hv with ⟨he, -, -⟩ | ⟨he, -, -⟩ | ⟨he, hw, rfl⟩
    · cases he
    · cases he
    · exact .inl ⟨he, hw, rfl⟩
  · rename_i v hv
    split at h
    · cases h
    · rename_i hfull
      simp only [Option.some.injEq, Prod.mk.injEq] at h
      obtain ⟨rfl, rfl⟩ := h
      simp only [not_or, Bool.not_eq_true, Nat.not_le] at hfull
      rcases ensureWriter_eq hv with ⟨-, hw, rfl⟩ | ⟨-, hw, rfl⟩ | ⟨he, -, -⟩
      · exact .inr ⟨rfl, hfull.1, hfull.2, s, .inl rfl, hw, rfl⟩
      · exact .inr ⟨rfl, hfull.1, hfull.2, _, .inr ⟨hw, rfl⟩, rfl, rfl⟩
      · cases he

/-- **`ClearFreeBlockChannel`'s loop**, over free blocks all mapped and
distinct: it empties the channel, unmaps exactly those blocks and counts
them out of `totalBlocks`. -/
theorem clearLoop_eq : ∀ (l : List ℕ) (s : BufferedWriteHandler), s.blockPool.freeBlocksCh = l → l.Nodup →
    (∀ b ∈ l, b < s.blocks.length ∧ (s.block b).mapped = true) →
    ∃ blocks permits, clearLoop l s =
      ({ s with
        blockPool := { s.blockPool with
          freeBlocksCh := [], totalBlocks := s.blockPool.totalBlocks - l.length }
        blocks := blocks
        globalPermits := permits }, true) ∧
      blocks.length = s.blocks.length ∧
      ∀ c, blocks.getD c ⟨[], false⟩ = if c ∈ l then ⟨[], false⟩ else s.block c
  | [], s, hfree, _, _ => ⟨s.blocks, s.globalPermits, by
      rw [clearLoop]
      simp only [List.length_nil, Nat.sub_zero]
      rw [← hfree], rfl,
      fun c => by simp [block]⟩
  | b :: rest, s, _, hnd, hmapped => by
    obtain ⟨hb, hm⟩ := hmapped b List.mem_cons_self
    have hnb := (List.nodup_cons.1 hnd).1
    -- the loop goes on with `b` unmapped and out of the count
    obtain ⟨blocks, permits, hloop, hlen, hget⟩ := clearLoop_eq rest
      { s with
        blockPool := { s.blockPool with
          freeBlocksCh := rest, totalBlocks := s.blockPool.totalBlocks - 1 }
        blocks := s.blocks.set b ⟨[], false⟩
        globalPermits := if s.blockPool.reservedBlocks < s.blockPool.totalBlocks
          then s.globalPermits + 1 else s.globalPermits }
      rfl (List.nodup_cons.1 hnd).2 (fun c hc => by
        rw [block_of_set rfl hb, if_neg fun h : b = c => hnb (h ▸ hc), List.length_set]
        exact hmapped c (List.mem_cons_of_mem b hc))
    refine ⟨blocks, permits, ?_, by rw [hlen, List.length_set], fun c => ?_⟩
    · rw [clearLoop, if_pos hm, hloop]
      have : s.blockPool.totalBlocks - 1 - rest.length = s.blockPool.totalBlocks - (rest.length + 1) := by omega
      simp only [List.length_cons, this]
    · rw [hget c, block_of_set rfl hb]
      simp only [List.mem_cons]
      by_cases hc : c = b
      · subst hc
        simp
      · simp [hc, Ne.symm hc]
/-- **`UploadHandler.Destroy`'s loop**: the blocks of the channel go to the
free channel, one `wg.Done()` each. -/
theorem drain_eq : ∀ (l : List ℕ) (s : BufferedWriteHandler),
    s.blockPool.freeBlocksCh.length + l.length ≤ s.blockPool.maxBlocks → l.length ≤ s.wg →
    drain l s = some { s with
      blockPool := { s.blockPool with freeBlocksCh := s.blockPool.freeBlocksCh ++ l }
      wg := s.wg - l.length }
  | [], s, _, _ => by simp [drain]
  | b :: rest, s, hfree, hwg => by
    simp only [List.length_cons] at hfree hwg
    simp only [drain, release_of_lt (show s.blockPool.freeBlocksCh.length < s.blockPool.maxBlocks by omega),
      Option.bind_eq_bind, Option.bind_some]
    simp only [done, if_neg (show ¬s.wg = 0 by omega), Option.bind_some]
    rw [drain_eq rest _ (by simp; omega) (by simp; omega)]
    simp only [List.append_assoc, List.singleton_append, List.length_cons]
    congr 2
    omega

/-! ## The invariant -/

/-- **The custody invariant.** The places are distinct, mapped blocks of
the heap, and every mapped block is in one; the pool counts them; what the
uploader has to upload and what `current` holds is not empty; `wg` counts
at least the blocks queued; a writer appends where `createObjectWriter`
put it; and `Finalize` waits with no current block. -/
structure Inv (cfg : Config) (s : BufferedWriteHandler) : Prop where
  blockSize : 0 < cfg.blockSize
  maxBlocks : s.blockPool.maxBlocks = cfg.maxBlocksPerFile
  nodup : s.places.Nodup
  placed : ∀ b ∈ s.places, b < s.blocks.length ∧ (s.block b).mapped = true
  cover : ∀ b, (s.block b).mapped = true → b ∈ s.places
  total : s.blockPool.totalBlocks = s.places.length
  le_max : s.blockPool.totalBlocks ≤ s.blockPool.maxBlocks
  nonempty : ∀ b ∈ s.current.toList ++ s.queued, 0 < (s.block b).size
  wg : s.queued.length ≤ s.wg
  offset : ∀ w, s.writer = some w → w.offset = writerOffset cfg
  finalizeWait : s.caller = .finalizeWait → s.current = none

theorem places_eq : s.places = s.current.toList ++ s.queued ++ s.blockPool.freeBlocksCh := rfl

/-- What the free channel holds is in no other place. -/
theorem Inv.free_disjoint (hs : Inv cfg s) {b : ℕ} (hb : b ∈ s.blockPool.freeBlocksCh) :
    b ∉ s.current.toList ++ s.queued := fun h =>
  List.disjoint_of_nodup_append hs.nodup h hb

theorem Inv.length_free_lt (hs : Inv cfg s) {b : ℕ} (hb : b ∈ s.current.toList ++ s.queued) :
    s.blockPool.freeBlocksCh.length < s.blockPool.maxBlocks := by
  have hlen : (s.current.toList ++ s.queued).length + s.blockPool.freeBlocksCh.length =
      s.blockPool.totalBlocks := by
    rw [hs.total, places_eq]
    simp only [List.length_append]
  have := List.length_pos_of_mem hb
  have := hs.le_max
  omega

/-- **A frame**: a step that leaves the places, the heap and the pool as
they were, and does not lower `wg`, keeps the invariant, as long as its
writer and its caller do. -/
theorem Inv.congr (hs : Inv cfg s) (hc : t.current = s.current) (hu : t.uploading = s.uploading)
    (hch : t.uploadCh = s.uploadCh) (hp : t.blockPool = s.blockPool) (hb : t.blocks = s.blocks)
    (hwg : s.wg ≤ t.wg) (hw : ∀ w, t.writer = some w → w.offset = writerOffset cfg)
    (hf : t.caller = .finalizeWait → t.current = none) : Inv cfg t := by
  have hpl : t.places = s.places := by simp only [places, queued, hc, hu, hch, hp]
  have hq : t.queued = s.queued := by simp only [queued, hu, hch]
  have hblk : ∀ b, t.block b = s.block b := fun b => by simp only [block, hb]
  exact {
    blockSize := hs.blockSize
    maxBlocks := hp ▸ hs.maxBlocks
    nodup := hpl ▸ hs.nodup
    placed := fun b h => by
      rw [hblk, hb]
      exact hs.placed b (hpl ▸ h)
    cover := fun b h => hpl ▸ hs.cover b (hblk b ▸ h)
    total := hpl ▸ hp ▸ hs.total
    le_max := hp ▸ hs.le_max
    nonempty := fun b h => by
      rw [hblk]
      exact hs.nonempty b (by rwa [hc, hq] at h)
    wg := hq ▸ Nat.le_trans hs.wg hwg
    offset := hw
    finalizeWait := hf }

/-- **Clearing the free channel** keeps the invariant: the free blocks
are unmapped and leave their place together. -/
theorem Inv.clear (hs : Inv cfg s) (r : Bool) : Inv cfg (s.clearFreeBlockChannel r).1 := by
  have hnd : s.blockPool.freeBlocksCh.Nodup := (List.nodup_append.1 hs.nodup).2.1
  obtain ⟨blocks, permits, hloop, hlen, hget⟩ := clearLoop_eq s.blockPool.freeBlocksCh s rfl hnd
    fun b hb => hs.placed b (List.mem_append_right _ hb)
  -- the cleared handler, with or without the reserved permits
  set t : BufferedWriteHandler := { s with
    blockPool := { s.blockPool with
      freeBlocksCh := [], totalBlocks := s.blockPool.totalBlocks - s.blockPool.freeBlocksCh.length }
    blocks := blocks
    globalPermits := permits } with ht
  have hblk : ∀ c, t.block c = if c ∈ s.blockPool.freeBlocksCh then ⟨[], false⟩ else s.block c :=
    hget
  have hpl : t.places = s.current.toList ++ s.queued := by simp [ht, places, queued]
  have hinv : Inv cfg t := {
    blockSize := hs.blockSize
    maxBlocks := hs.maxBlocks
    nodup := hpl ▸ (List.nodup_append.1 hs.nodup).1
    placed := fun b h => by
      rw [hpl] at h
      rw [hblk, if_neg fun hf => hs.free_disjoint hf h]
      simpa [ht, hlen] using hs.placed b (List.mem_append_left _ h)
    cover := fun b h => by
      rw [hblk] at h
      split at h
      · cases h
      · rename_i hf
        rw [hpl]
        rcases List.mem_append.1 (hs.cover b h) with h' | h'
        · exact h'
        · exact absurd h' hf
    total := by
      rw [hpl]
      simp only [ht]
      rw [hs.total, places_eq, List.length_append]
      omega
    le_max := by
      simp only [ht]
      have := hs.le_max
      omega
    nonempty := fun b h => by
      rw [hblk, if_neg fun hf => hs.free_disjoint hf h]
      exact hs.nonempty b h
    wg := hs.wg
    offset := hs.offset
    finalizeWait := hs.finalizeWait }
  unfold clearFreeBlockChannel
  rw [hloop]
  cases r
  · exact hinv
  · exact hinv.congr rfl rfl rfl rfl rfl (Nat.le_refl _) hs.offset hs.finalizeWait

/-- What clearing the free channel changes: the pool, the permits, and
the blocks of the free channel. -/
theorem Inv.clear_eq (hs : Inv cfg s) (r : Bool) :
    ∃ blocks blockPool globalPermits, (s.clearFreeBlockChannel r).1 =
      { s with blocks := blocks, blockPool := blockPool, globalPermits := globalPermits } ∧
      ∀ c, c ∉ s.blockPool.freeBlocksCh → blocks.getD c ⟨[], false⟩ = s.block c := by
  have hnd : s.blockPool.freeBlocksCh.Nodup := (List.nodup_append.1 hs.nodup).2.1
  obtain ⟨blocks, permits, hloop, -, hget⟩ := clearLoop_eq s.blockPool.freeBlocksCh s rfl hnd
    fun b hb => hs.placed b (List.mem_append_right _ hb)
  have hkeep : ∀ c, c ∉ s.blockPool.freeBlocksCh → blocks.getD c ⟨[], false⟩ = s.block c :=
    fun c hc => by rw [hget, if_neg hc]
  unfold clearFreeBlockChannel
  rw [hloop]
  cases r
  · exact ⟨blocks, _, permits, rfl, hkeep⟩
  · exact ⟨blocks, _, _, rfl, hkeep⟩

/-- Clearing empties the free channel. -/
theorem Inv.clear_free (hs : Inv cfg s) (r : Bool) :
    (s.clearFreeBlockChannel r).1.blockPool.freeBlocksCh = [] := by
  have hnd : s.blockPool.freeBlocksCh.Nodup := (List.nodup_append.1 hs.nodup).2.1
  obtain ⟨blocks, permits, hloop, -, -⟩ := clearLoop_eq s.blockPool.freeBlocksCh s rfl hnd
    fun b hb => hs.placed b (List.mem_append_right _ hb)
  unfold clearFreeBlockChannel
  rw [hloop]
  cases r <;> rfl

/-- **A block changes place**: a step that permutes the places and maps
and unmaps nothing keeps the invariant, as long as what it queues is not
empty and `wg` still counts it. -/
theorem Inv.of_places (hs : Inv cfg s) (hpl : t.places.Perm s.places)
    (hlen : t.blocks.length = s.blocks.length) (hmapped : ∀ c, (t.block c).mapped = (s.block c).mapped)
    (htot : t.blockPool.totalBlocks = s.blockPool.totalBlocks)
    (hmax : t.blockPool.maxBlocks = s.blockPool.maxBlocks)
    (hne : ∀ b ∈ t.current.toList ++ t.queued, 0 < (t.block b).size)
    (hwg : t.queued.length ≤ t.wg) (hw : ∀ w, t.writer = some w → w.offset = writerOffset cfg)
    (hf : t.caller = .finalizeWait → t.current = none) : Inv cfg t where
  blockSize := hs.blockSize
  maxBlocks := hmax ▸ hs.maxBlocks
  nodup := hpl.nodup_iff.2 hs.nodup
  placed := fun b h => by
    rw [hmapped, hlen]
    exact hs.placed b (hpl.subset h)
  cover := fun b h => hpl.symm.subset (hs.cover b (hmapped b ▸ h))
  total := by rw [htot, hs.total, hpl.length_eq]
  le_max := htot ▸ hmax ▸ hs.le_max
  nonempty := hne
  wg := hwg
  offset := hw
  finalizeWait := hf

theorem Inv.reply (hs : Inv cfg s) (r : Reply) : Inv cfg (s.reply r) :=
  hs.congr rfl rfl rfl rfl rfl (Nat.le_refl _) hs.offset (fun h => by cases h)

theorem Inv.appendFailed (hs : Inv cfg s) (after : AfterAppend) (e : WriteError) :
    Inv cfg (s.appendFailed after e) := by
  cases after <;> exact hs.reply _

section copyInto

variable {b : ℕ} {pending : List UInt8} {dataWritten : ℕ} {calls : List (List UInt8)}
  {after : AfterAppend}

theorem copyInto_places (u : BufferedWriteHandler) :
    (u.copyInto cfg b pending dataWritten calls after).places =
      b :: (u.queued ++ u.blockPool.freeBlocksCh) := rfl

theorem copyInto_length (u : BufferedWriteHandler) :
    (u.copyInto cfg b pending dataWritten calls after).blocks.length = u.blocks.length :=
  List.length_set

theorem copyInto_block (hbu : b < u.blocks.length) (c : ℕ) :
    (u.copyInto cfg b pending dataWritten calls after).block c =
      if b = c then ⟨(u.block b).buffer ++
        pending.take (min (cfg.blockSize - (u.block b).size) pending.length), (u.block b).mapped⟩
      else u.block c :=
  block_of_set rfl hbu c

/-- The copy takes what fits of `pending`. -/
theorem copyInto_size (hbu : b < u.blocks.length) :
    ((u.copyInto cfg b pending dataWritten calls after).block b).size =
      (u.block b).size + min (cfg.blockSize - (u.block b).size) pending.length := by
  rw [copyInto_block hbu, if_pos rfl]
  simp only [MemoryBlock.size, List.length_append, List.length_take]
  omega

/-- What `currentBlock` returns: the handler with the heap and the pool
changed by `Get`, and a block in no queue whose bytes are the current
ones; the queued blocks keep theirs. -/
theorem Inv.currentBlock_eq (hs : Inv cfg s) {created : Bool} (h : s.currentBlock created = some (t, some b)) :
    (∃ blocks blockPool globalPermits,
      t = { s with blocks := blocks, blockPool := blockPool, globalPermits := globalPermits }) ∧
    b < t.blocks.length ∧ b ∉ s.queued ∧ (t.block b).buffer = s.currentBytes ∧
    ∀ c ∈ s.queued, t.block c = s.block c := by
  unfold currentBlock at h
  split at h
  · rename_i b' hcur
    simp only [Option.some.injEq, Prod.mk.injEq] at h
    obtain ⟨rfl, rfl⟩ := h
    have hbq : b' ∈ s.current.toList ++ s.queued := by simp [hcur]
    refine ⟨⟨_, _, _, rfl⟩, (hs.placed _ (List.mem_append_left _ hbq)).1, fun hq => ?_,
      by simp [currentBytes, hcur], fun _ _ => rfl⟩
    have hnd := (List.nodup_append.1 hs.nodup).1
    rw [hcur] at hnd
    exact (List.nodup_cons.1 hnd).1 hq
  · rename_i hcur
    have hcb : s.currentBytes = [] := by simp [currentBytes, hcur]
    rcases get_eq_some h with ⟨rest, hfree, rfl⟩ | ⟨hfree, rfl, -, permits, rfl⟩
    · -- a released block, emptied
      have hbf : b ∈ s.blockPool.freeBlocksCh := hfree ▸ List.mem_cons_self
      have hbl := (hs.placed b (List.mem_append_right _ hbf)).1
      have hnq : b ∉ s.queued := fun hq => hs.free_disjoint hbf (by simp [hcur, hq])
      refine ⟨⟨_, _, _, rfl⟩, by rw [List.length_set]; exact hbl, hnq, ?_, fun c hc => ?_⟩
      · rw [block_of_set rfl hbl, if_pos rfl, hcb]
        rfl
      · rw [block_of_set rfl hbl, if_neg fun h : b = c => hnq (h ▸ hc)]
    · -- a new block at the end of the heap
      have hnq : s.blocks.length ∉ s.queued := fun hq =>
        Nat.lt_irrefl _ (hs.placed _ (List.mem_append_left _ (List.mem_append_right _ hq))).1
      refine ⟨⟨_, _, _, rfl⟩, by simp, hnq, ?_, fun c hc => ?_⟩
      · rw [block_of_concat rfl, if_pos rfl, hcb]
        rfl
      · rw [block_of_concat rfl, if_neg fun h : c = s.blocks.length => hnq (h ▸ hc)]

/-- **A turn copies into `current`**, or into the block `Get` returns,
which takes its place as `current`: the copy is not empty. -/
theorem Inv.copyInto (hs : Inv cfg s) {created : Bool} (hcb : s.currentBlock created = some (t, some b))
    (hp : pending ≠ []) :
    Inv cfg (t.copyInto cfg b pending dataWritten calls after) := by
  have hlen : 0 < pending.length := List.length_pos_of_ne_nil hp
  have hbs := hs.blockSize
  unfold currentBlock at hcb
  split at hcb
  · -- `current` itself: the places stay, the block grows
    rename_i b' hcur
    simp only [Option.some.injEq, Prod.mk.injEq] at hcb
    obtain ⟨rfl, rfl⟩ := hcb
    have hbq : b' ∈ s.current.toList ++ s.queued := by simp [hcur]
    have hbl := (hs.placed _ (List.mem_append_left _ hbq)).1
    refine hs.of_places (by rw [copyInto_places, places_eq, hcur]; rfl) (copyInto_length s)
      (fun c => ?_) rfl rfl (fun c hc => ?_) hs.wg hs.offset (fun h => by cases h)
    · rw [copyInto_block hbl]
      split
      · subst_vars
        rfl
      · rfl
    · change c ∈ [b'] ++ s.queued at hc
      by_cases hbc : b' = c
      · subst hbc
        rw [copyInto_size hbl]
        have := hs.nonempty _ hbq
        omega
      · rw [copyInto_block hbl, if_neg hbc]
        exact hs.nonempty c (by rw [hcur]; exact hc)
  · rename_i hcur
    rcases get_eq_some hcb with ⟨rest, hfree, ht⟩ | ⟨hfree, rfl, hlt, permits, ht⟩
    · -- a released block, emptied: from the free channel to `current`
      have hbf : b ∈ s.blockPool.freeBlocksCh := hfree ▸ List.mem_cons_self
      have hbl := (hs.placed b (List.mem_append_right _ hbf)).1
      have htb : ∀ c, t.block c = if b = c then (s.block b).reuse else s.block c :=
        block_of_set (by rw [ht]) hbl
      have hbt : b < t.blocks.length := by rw [ht, List.length_set]; exact hbl
      subst ht
      refine hs.of_places ?_ (by rw [copyInto_length, List.length_set]) (fun c => ?_) rfl rfl
        (fun c hc => ?_) hs.wg hs.offset (fun h => by cases h)
      · rw [copyInto_places, places_eq, hcur, hfree]
        exact List.perm_middle.symm
      · by_cases hbc : b = c
        · subst hbc
          rw [copyInto_block hbt, if_pos rfl, htb, if_pos rfl]
          rfl
        · rw [copyInto_block hbt, if_neg hbc, htb, if_neg hbc]
      · change c ∈ b :: s.queued at hc
        rcases List.mem_cons.1 hc with rfl | hc
        · rw [copyInto_size hbt, htb, if_pos rfl]
          simp only [MemoryBlock.reuse, MemoryBlock.size, List.length_nil]
          omega
        · have hbc : b ≠ c := fun h => hs.free_disjoint hbf (by rw [hcur, h]; exact hc)
          rw [copyInto_block hbt, if_neg hbc, htb, if_neg hbc]
          exact hs.nonempty c (by rw [hcur]; exact hc)
    · -- a new block at the end of the heap, now `current`
      have htb : ∀ c, t.block c = if c = s.blocks.length then .create else s.block c :=
        block_of_concat (by rw [ht])
      have htl : t.blocks.length = s.blocks.length + 1 := by rw [ht, List.length_append]; rfl
      have hbt : s.blocks.length < t.blocks.length := by omega
      have hnew : s.blocks.length ∉ s.places := fun h => Nat.lt_irrefl _ (hs.placed _ h).1
      have hpl : (t.copyInto cfg s.blocks.length pending dataWritten calls after).places =
          s.blocks.length :: s.places := by
        rw [copyInto_places, places_eq, hcur, ht]
        rfl
      subst ht
      exact {
        blockSize := hbs
        maxBlocks := hs.maxBlocks
        nodup := hpl ▸ List.nodup_cons.2 ⟨hnew, hs.nodup⟩
        placed := fun c hc => by
          rw [hpl] at hc
          rw [copyInto_length, htl]
          rcases List.mem_cons.1 hc with rfl | hc
          · rw [copyInto_block hbt, if_pos rfl, htb, if_pos rfl]
            exact ⟨Nat.lt_succ_self _, rfl⟩
          · obtain ⟨hcl, hm⟩ := hs.placed c hc
            rw [copyInto_block hbt, if_neg (by omega), htb, if_neg (by omega)]
            exact ⟨by omega, hm⟩
        cover := fun c h => by
          rw [hpl]
          by_cases hcl : c = s.blocks.length
          · exact hcl ▸ List.mem_cons_self
          · rw [copyInto_block hbt, if_neg (Ne.symm hcl), htb, if_neg hcl] at h
            exact List.mem_cons_of_mem _ (hs.cover c h)
        total := by
          rw [hpl, List.length_cons, ← hs.total]
          rfl
        le_max := hlt
        nonempty := fun c hc => by
          change c ∈ s.blocks.length :: s.queued at hc
          rcases List.mem_cons.1 hc with rfl | hc
          · rw [copyInto_size hbt, htb, if_pos rfl]
            simp only [MemoryBlock.create, MemoryBlock.size, List.length_nil]
            omega
          · have hcs : c ∈ s.current.toList ++ s.queued := by rw [hcur]; exact hc
            have hcl := (hs.placed c (List.mem_append_left _ hcs)).1
            rw [copyInto_block hbt, if_neg (by omega), htb, if_neg (by omega)]
            exact hs.nonempty c hcs
        wg := hs.wg
        offset := hs.offset
        finalizeWait := fun h => by cases h }

end copyInto

/-- A step that changes only the caller keeps the invariant, unless it
makes `Finalize` wait with a current block. -/
theorem Inv.setCaller (hs : Inv cfg s) {c : Caller} (hc : c = .finalizeWait → s.current = none) :
    Inv cfg { s with caller := c } :=
  hs.congr rfl rfl rfl rfl rfl (Nat.le_refl _) hs.offset hc

/-! ## Sending a block -/

/-- The handler `ensureWriter` leaves for `Upload`. -/
theorem Inv.ensured (hs : Inv cfg s) {v : BufferedWriteHandler}
    (hv : v = s ∨ (s.writer = none ∧
      v = { s with writer := some ⟨writerOffset cfg, []⟩, cancelled := false })) :
    Inv cfg v ∧ v.current = s.current := by
  rcases hv with rfl | ⟨-, rfl⟩
  · exact ⟨hs, rfl⟩
  · exact ⟨hs.congr rfl rfl rfl rfl rfl (Nat.le_refl _) (fun w h => by cases h; rfl)
      hs.finalizeWait, rfl⟩

/-- **`Upload` sends `current`**: the block goes from `current` to the
end of the channel, and `wg` counts it. -/
theorem Inv.send (hs : Inv cfg s) {b : ℕ} (hcur : s.current = some b) :
    Inv cfg
      { s with
        wg := s.wg + 1, uploaderStarted := true, uploadCh := s.uploadCh ++ [b], current := none } := by
  have hq : (s.uploading.toList ++ (s.uploadCh ++ [b])).Perm (s.current.toList ++ s.queued) := by
    rw [hcur, ← List.append_assoc]
    exact List.perm_append_comm
  refine hs.of_places (hq.append_right _) rfl (fun _ => rfl) rfl rfl
    (fun c hc => hs.nonempty c (hq.subset hc)) ?_ hs.offset (fun _ => rfl)
  have := hs.wg
  simp only [queued, List.length_append, List.length_singleton] at this ⊢
  omega

/-- A failed `Upload` sent nothing: only `wg` went up. -/
theorem Inv.upload_error (hs : Inv cfg s) {b : ℕ} {ok : Bool} {e : WriteError}
    (h : s.upload cfg b ok = some (t, some e)) : Inv cfg t ∧ t.current = s.current := by
  rcases upload_eq_some h with ⟨-, -, rfl⟩ | ⟨he, -⟩
  · exact ⟨hs.congr rfl rfl rfl rfl rfl (Nat.le_succ _) hs.offset hs.finalizeWait, rfl⟩
  · cases he

theorem Inv.upload_ok (hs : Inv cfg s) {b : ℕ} {ok : Bool} (hcur : s.current = some b)
    (h : s.upload cfg b ok = some (t, none)) : Inv cfg { t with current := none } := by
  rcases upload_eq_some h with ⟨he, -⟩ | ⟨-, -, -, v, hv, -, rfl⟩
  · cases he
  · obtain ⟨hv, hvc⟩ := hs.ensured hv
    exact hv.send (hvc.trans hcur)

theorem Inv.uploadFull (hs : Inv cfg s) {b : ℕ} {after : AfterAppend} {ok : Bool}
    (hcur : s.current = some b) (h : s.uploadFull cfg b after ok = some t) : Inv cfg t := by
  unfold BufferedWriteHandler.uploadFull at h
  split at h
  · obtain ⟨⟨u, e⟩, hu, rfl⟩ := Option.map_eq_some_iff.1 h
    cases e with
    | some e => exact (hs.upload_error hu).1.appendFailed after e
    | none => exact hs.upload_ok hcur hu
  · cases h
    exact hs

/-! ## The calls -/

theorem Inv.addWritten (hs : Inv cfg s) (dataWritten : ℕ) : Inv cfg (s.addWritten dataWritten) := by
  unfold BufferedWriteHandler.addWritten
  dsimp only
  split
  · exact hs.congr rfl rfl rfl rfl rfl (Nat.le_refl _) hs.offset hs.finalizeWait
  · exact hs.congr rfl rfl rfl rfl rfl (Nat.le_refl _) hs.offset hs.finalizeWait

theorem Inv.flushCurrent (hs : Inv cfg s) {ok : Bool} (h : s.flushCurrent cfg ok = some t) :
    Inv cfg t := by
  unfold BufferedWriteHandler.flushCurrent at h
  split at h
  · rename_i hcur
    cases h
    exact hs.setCaller fun _ => hcur
  · rename_i b hcur
    obtain ⟨⟨u, e⟩, hu, rfl⟩ := Option.map_eq_some_iff.1 h
    cases e with
    | some e =>
      obtain ⟨hu, huc⟩ := hs.upload_error hu
      exact hu.congr (huc.trans hcur).symm rfl rfl rfl rfl (Nat.le_refl _) hu.offset
        (fun h => by cases h)
    | none => exact (hs.upload_ok hcur hu).setCaller fun _ => rfl

theorem Inv.appendEnd (hs : Inv cfg s) {dataWritten : ℕ} {calls : List (List UInt8)}
    {after : AfterAppend} {ok : Bool} (h : s.appendEnd cfg dataWritten calls after ok = some t) :
    Inv cfg t := by
  have hw := hs.addWritten dataWritten
  unfold BufferedWriteHandler.appendEnd at h
  split at h
  · cases h
    exact hw.setCaller fun h => by cases h
  · cases h
    exact hw.reply _
  · exact hw.flushCurrent h

theorem Inv.appendStep (hs : Inv cfg s) {pending : List UInt8} {dataWritten : ℕ}
    {calls : List (List UInt8)} {after : AfterAppend} {ok created : Bool}
    (h : s.appendStep cfg pending dataWritten calls after ok created = some t) : Inv cfg t := by
  unfold BufferedWriteHandler.appendStep at h
  split at h
  · exact hs.appendEnd h
  · obtain ⟨⟨u, b⟩, hcb, h⟩ := Option.bind_eq_some_iff.1 h
    cases b with
    | some b => exact (hs.copyInto hcb (List.cons_ne_nil _ _)).uploadFull rfl h
    | none =>
      -- `Get` failed: only the permit it took is gone
      obtain ⟨permits, rfl⟩ := currentBlock_eq_failed hcb
      obtain rfl := Option.some.inj h
      have hp : Inv cfg { s with globalPermits := permits } :=
        hs.congr rfl rfl rfl rfl rfl (Nat.le_refl _) hs.offset hs.finalizeWait
      exact hp.appendFailed _ _

theorem Inv.write (hs : Inv cfg s) (offset : ℤ) (data : List UInt8) :
    Inv cfg (s.write offset data) := by
  unfold BufferedWriteHandler.write
  split
  · exact hs.reply _
  · split
    · exact hs.reply _
    · -- the calls of `appendBuffer`, whatever they are
      dsimp only
      generalize (if offset = s.truncatedSize then s.truncationChunks else []) ++ [data] = calls
      cases calls with
      | cons c rest => exact hs.setCaller fun h => by cases h
      | nil => exact hs.reply _

theorem Inv.truncate (hs : Inv cfg s) (size : ℤ) : Inv cfg (s.truncate size) := by
  unfold BufferedWriteHandler.truncate
  split
  · exact hs.reply _
  · have ht : Inv cfg { s with truncatedSize := size } :=
      hs.congr rfl rfl rfl rfl rfl (Nat.le_refl _) hs.offset hs.finalizeWait
    exact ht.reply _

theorem Inv.sync (hs : Inv cfg s) {ok : Bool} (h : s.sync cfg ok = some t) : Inv cfg t := by
  unfold BufferedWriteHandler.sync at h
  split at h
  · rename_i b hcur
    split at h
    · obtain ⟨⟨u, e⟩, hu, rfl⟩ := Option.map_eq_some_iff.1 h
      cases e with
      | some e => exact (hs.upload_error hu).1.reply _
      | none => exact (hs.upload_ok hcur hu).setCaller fun h => by cases h
    · cases h
      exact hs.setCaller fun h => by cases h
  · cases h
    exact hs.setCaller fun h => by cases h

theorem Inv.syncRelease (hs : Inv cfg s) (o : Option ℤ) : Inv cfg (s.syncRelease o) := by
  have hc := hs.clear false
  unfold BufferedWriteHandler.syncRelease
  dsimp only
  split
  · exact hc.reply _
  · exact hc.reply _

/-- The writer `ensureWriter` creates appends at `writerOffset`. -/
theorem Inv.ensureWriter (hs : Inv cfg s) {ok : Bool} {e : Option WriteError}
    (h : s.ensureWriter cfg ok = (t, e)) : Inv cfg t := by
  rcases ensureWriter_eq h with ⟨-, -, rfl⟩ | ⟨-, hw, rfl⟩ | ⟨-, -, rfl⟩
  · exact hs
  · exact (hs.ensured (.inr ⟨hw, rfl⟩)).1
  · exact hs

theorem Inv.syncEnd (hs : Inv cfg s) (writerOk flushOk : Bool) :
    Inv cfg (s.syncEnd cfg writerOk flushOk) := by
  unfold BufferedWriteHandler.syncEnd
  split
  · split
    · rename_i heq
      exact (hs.ensureWriter heq).reply _
    · rename_i u heq
      have hu := hs.ensureWriter heq
      split
      · exact hu.reply _
      · split
        · dsimp only
          split
          · exact hu.reply _
          · exact hu.syncRelease _
        · -- the pending writes failed to flush
          have he : Inv cfg { u with uploadError := some .flushPendingWrites } :=
            hu.congr rfl rfl rfl rfl rfl (Nat.le_refl _) hu.offset hu.finalizeWait
          exact he.reply _
  · exact hs.syncRelease none

theorem Inv.flush (hs : Inv cfg s) {ok : Bool} (h : s.flush cfg ok = some t) : Inv cfg t := by
  unfold BufferedWriteHandler.flush at h
  split at h
  · cases h
    exact hs.reply _
  · split at h
    · cases h
      exact hs.setCaller fun h => by cases h
    · exact hs.flushCurrent h

theorem Inv.finalizeEnd (hs : Inv cfg s) {writerOk finalizeOk : Bool}
    (h : s.finalizeEnd cfg writerOk finalizeOk = some t) : Inv cfg t := by
  have hc : Inv cfg { s with chClosed := true } :=
    hs.congr rfl rfl rfl rfl rfl (Nat.le_refl _) hs.offset hs.finalizeWait
  unfold BufferedWriteHandler.finalizeEnd at h
  split at h
  · cases h
  · split at h
    · rename_i heq
      cases h
      exact (hc.ensureWriter heq).reply _
    · rename_i u heq
      have hu := hc.ensureWriter heq
      split at h
      · cases h
        exact hu.reply _
      · split at h
        · dsimp only at h
          split at h
          · cases h
            exact hu.reply _
          · cases h
            exact (hu.clear true).reply _
        · -- `FinalizeUpload` failed
          cases h
          have he : Inv cfg { u with uploadError := some .finalizeUpload } :=
            hu.congr rfl rfl rfl rfl rfl (Nat.le_refl _) hu.offset hu.finalizeWait
          exact he.reply _

theorem Inv.unlink (hs : Inv cfg s) : Inv cfg s.unlink :=
  hs.congr rfl rfl rfl rfl rfl (Nat.le_refl _) hs.offset (fun h => by cases h)

/-- **`Destroy`'s drain**: the blocks of the channel go to the free
channel, and `wg` loses one count each. -/
theorem Inv.drain (hs : Inv cfg s) :
    ∃ u, drain s.uploadCh { s with uploadCh := [] } = some u ∧ Inv cfg { u with chClosed := true } ∧
      u.caller = s.caller ∧ u.writer = s.writer ∧ u.cancelled = s.cancelled ∧
      u.current = s.current ∧ u.uploading = s.uploading ∧ u.uploadCh = [] := by
  -- the places only move blocks from the channel to the free channel
  have hlen : s.blockPool.freeBlocksCh.length + s.uploadCh.length ≤ s.blockPool.maxBlocks := by
    have := hs.le_max
    rw [hs.total, places_eq] at this
    simp only [queued, List.length_append] at this
    omega
  have hwg : s.uploadCh.length ≤ s.wg := by
    have := hs.wg
    simp only [queued, List.length_append] at this
    omega
  refine ⟨_, drain_eq s.uploadCh { s with uploadCh := [] } hlen hwg, ?_, rfl, rfl, rfl, rfl, rfl, rfl⟩
  refine hs.of_places ?_ rfl (fun _ => rfl) rfl rfl (fun c hc => hs.nonempty c ?_) ?_ hs.offset
    hs.finalizeWait
  · simp only [places, queued, List.append_nil, List.append_assoc]
    exact (List.perm_append_comm.append_left _).append_left _
  · simp only [queued, List.append_nil] at hc ⊢
    rcases List.mem_append.1 hc with h | h
    · exact List.mem_append_left _ h
    · exact List.mem_append_right _ (List.mem_append_left _ h)
  · have := hs.wg
    simp only [queued, List.length_append, List.length_nil] at this ⊢
    omega

theorem Inv.destroy (hs : Inv cfg s) : ∃ t, s.destroy = some t ∧ Inv cfg t := by
  obtain ⟨u, hu, hinv, -⟩ := hs.drain
  refine ⟨_, ?_, (hinv.clear true).reply
    (.destroy (!({ u with chClosed := true }.clearFreeBlockChannel true).2))⟩
  unfold BufferedWriteHandler.destroy
  rw [hu]
  rfl

/-! ## The uploader -/

theorem Inv.uploaderTake (hs : Inv cfg s) {b : ℕ} {rest : List ℕ} (hu : s.uploading = none)
    (hch : s.uploadCh = b :: rest) : Inv cfg { s with uploading := some b, uploadCh := rest } := by
  have hq : ({ s with uploading := some b, uploadCh := rest } : BufferedWriteHandler).queued =
      s.queued := by
    simp [queued, hu, hch]
  refine hs.of_places (by rw [places_eq, places_eq, hq]) rfl (fun _ => rfl) rfl rfl
    (fun c hc => hs.nonempty c (by rwa [hq] at hc)) (hq ▸ hs.wg) hs.offset hs.finalizeWait

/-- `uploadBlock` changes only the writer and the upload error, and the
writer keeps its offset. -/
theorem uploadBlock_eq {b : ℕ} {r : CopyResult} (h : s.uploadBlock b r = some t) :
    ∃ w e, t = { s with writer := w, uploadError := e } ∧
      ∀ w', w = some w' → ∃ v, s.writer = some v ∧ w'.offset = v.offset := by
  unfold uploadBlock at h
  split at h
  · cases h
    exact ⟨s.writer, s.uploadError, rfl, fun w' hw => ⟨w', hw, rfl⟩⟩
  · split at h
    · cases h
    · rename_i w hw
      cases h
      exact ⟨_, _, rfl, fun w' h' => by cases h'; exact ⟨w, hw, rfl⟩⟩
    · rename_i w n hw
      cases h
      exact ⟨_, _, rfl, fun w' h' => by cases h'; exact ⟨w, hw, rfl⟩⟩
    · rename_i w n hw
      split at h
      · cases h
        exact ⟨_, _, rfl, fun w' h' => by cases h'; exact ⟨w, hw, rfl⟩⟩
      · cases h

/-- **The uploader releases its block**: from its hands to the end of the
free channel, with one `wg.Done()`. -/
theorem Inv.uploaderFinish (hs : Inv cfg s) {b : ℕ} {r : CopyResult} (hb : s.uploading = some b)
    (h : (do
      let t ← s.uploadBlock b r
      let t ← t.release b
      let t ← t.done
      some { t with uploading := none }) = some t) : Inv cfg t := by
  simp only [Option.bind_eq_bind, Option.bind_eq_some_iff, Option.some.injEq] at h
  obtain ⟨u, hu, v, hv, w, hw, rfl⟩ := h
  obtain ⟨wr, e, rfl, hwr⟩ := uploadBlock_eq hu
  obtain ⟨-, rfl⟩ := release_eq_some hv
  obtain ⟨hpos, rfl⟩ := done_eq_some hw
  have hq : s.queued = b :: s.uploadCh := by simp [queued, hb]
  refine hs.of_places ?_ rfl (fun _ => rfl) rfl rfl (fun c hc => hs.nonempty c ?_) ?_ ?_
    hs.finalizeWait
  · -- the block leaves the front of the queue for the end of the free channel
    rw [places_eq, places_eq, hq]
    show (s.current.toList ++ s.uploadCh ++ (s.blockPool.freeBlocksCh ++ [b])).Perm
      (s.current.toList ++ b :: s.uploadCh ++ s.blockPool.freeBlocksCh)
    rw [List.append_assoc, List.append_assoc, ← List.append_assoc s.uploadCh]
    exact List.perm_append_comm.append_left _
  · simp only [queued, Option.toList_none, List.nil_append] at hc
    rw [hq]
    rcases List.mem_append.1 hc with h | h
    · exact List.mem_append_left _ h
    · exact List.mem_append_right _ (List.mem_cons_of_mem _ h)
  · have := hs.wg
    rw [hq] at this
    simp only [queued, Option.toList_none, List.nil_append, List.length_cons] at this ⊢
    omega
  · intro w' h'
    obtain ⟨v, hv, hoff⟩ := hwr w' h'
    rw [hoff]
    exact hs.offset v hv

/-! ## Every step -/

theorem Inv.init {globalPermits : ℕ} (h : new cfg globalPermits = some s) : Inv cfg s := by
  unfold new at h
  obtain ⟨⟨p, permits⟩, hp, rfl⟩ := Option.map_eq_some_iff.1 h
  obtain ⟨hfree, htot⟩ := GenBlockPool.new_eq_some hp
  unfold GenBlockPool.new at hp
  split_ifs at hp with h0 h1 h2
  cases hp
  exact {
    blockSize := by omega
    maxBlocks := rfl
    nodup := List.nodup_nil
    placed := fun b h => by simp [places, queued] at h
    cover := fun b h => by simp [block] at h
    total := rfl
    le_max := Nat.zero_le _
    nonempty := fun b h => by simp [queued] at h
    wg := Nat.le_refl _
    offset := fun w h => by cases h
    finalizeWait := fun h => by cases h }

/-- **One step keeps the custody invariant.** -/
theorem Inv.step (hs : Inv cfg s) {a : Action} (h : s.step cfg a = some t) : Inv cfg t := by
  cases a with
  | write offset data =>
    obtain ⟨-, rfl⟩ := step_write h
    exact hs.write offset data
  | appendStep ok created =>
    obtain ⟨pending, dataWritten, calls, after, -, happend⟩ := step_appendStep h
    exact hs.appendStep happend
  | truncate size =>
    obtain ⟨-, rfl⟩ := step_truncate h
    exact hs.truncate size
  | sync ok => exact hs.sync (step_sync h).2
  | syncEnd writerOk flushOk =>
    obtain ⟨-, rfl⟩ := step_syncEnd h
    exact hs.syncEnd writerOk flushOk
  | flush ok => exact hs.flush (step_flush h).2
  | finalizeEnd writerOk finalizeOk => exact hs.finalizeEnd (step_finalizeEnd h).2
  | unlink =>
    obtain ⟨-, rfl⟩ := step_unlink h
    exact hs.unlink
  | unlinkEnd =>
    obtain ⟨-, rfl⟩ := step_unlinkEnd h
    exact (hs.clear false).reply _
  | destroy =>
    -- `Destroy` has one outcome, and the invariant holds of it
    obtain ⟨u, hu, hinv⟩ := hs.destroy
    rw [(step_destroy h).2] at hu
    cases hu
    exact hinv
  | uploaderTake =>
    obtain ⟨b, rest, hu, hch, -, rfl⟩ := step_uploaderTake h
    exact hs.uploaderTake hu hch
  | uploaderFinish r =>
    obtain ⟨b, hb, h⟩ := step_uploaderFinish h
    exact hs.uploaderFinish hb h

end BufferedWriteHandler

end BufferedWrite

end GcsFuse
