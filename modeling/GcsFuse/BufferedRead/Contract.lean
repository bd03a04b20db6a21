import GcsFuse.BufferedRead.Run
/-!
# The buffered reader — its contract

What every run of a `BufferedReader` guarantees, read off the invariant
of `Run`: the reads return the object's bytes and the queue is a window
of consecutive blocks, and every block the pool created is in exactly one
custody (queued, evicted but still referenced, or free), so that the pool
is never handed a block twice or one still in use, and nothing panics.

A run here is any interleaving of `ReadAt` calls, their rounds, the
download tasks ending with the object's bytes, the kernel's callbacks and
`Destroy`.

Two facts of the references close the file. A `Destroy` whose wait ended
finds every block free. But a read that fails with an error other than a
fall back sets no callback, and the references it took are never given
back: the wait of `Destroy` can then only time out, and those blocks never
return to the pool.
-/

namespace GcsFuse

namespace BufferedRead

open Block Run

namespace BufferedReader

/-- Where a block the pool created is. -/
inductive Custody
  | queued
  | evicted
  | free
  deriving DecidableEq, Repr

/-- Block `b` is in custody `k`: the block of a queued entry, the block of
an entry popped and marked evicted that a response or the read in its loop
still holds references on, or in the free channel of the pool `p`. -/
def InCustody (s : BufferedReader) (p : GenBlockPool) (b : ℕ) : Custody → Prop
  | .queued => ∃ e ∈ s.blockQueue, (s.entry e).block = b
  | .evicted => ∃ e ∈ s.held, e ∉ s.blockQueue ∧ (s.entry e).wasEvicted = true ∧
      (s.entry e).block = b ∧ 0 < (s.block b).refCount
  | .free => b ∈ p.freeBlocksCh

instance (s : BufferedReader) (p : GenBlockPool) (b : ℕ) (k : Custody) :
    Decidable (InCustody s p b k) :=
  match k with
  | .queued => inferInstanceAs (Decidable (∃ e ∈ s.blockQueue, (s.entry e).block = b))
  | .evicted => inferInstanceAs (Decidable (∃ e ∈ s.held, e ∉ s.blockQueue ∧
      (s.entry e).wasEvicted = true ∧ (s.entry e).block = b ∧ 0 < (s.block b).refCount))
  | .free => inferInstanceAs (Decidable (b ∈ p.freeBlocksCh))

variable {cfg : BufferedReadConfig} {objectSize : ℕ} {obj : ℕ → UInt8}
variable {s : BufferedReader} {p : GenBlockPool}

/-! ## Custody -/

/-- A block that is some entry's is not free. -/
theorem Inv.not_free (hs : Inv cfg objectSize obj s) (hp : s.blockPool = some p) {e : ℕ}
    (he : Active s s.held e) : (s.entry e).block ∉ p.freeBlocksCh :=
  (hs.heap.pool p hp).active_not_free e he

/-- A queued or evicted block is the block of an active entry. -/
theorem InCustody.active {b : ℕ} {k : Custody} (hk : InCustody s p b k) (hkf : k ≠ .free) :
    ∃ e, Active s s.held e ∧ (s.entry e).block = b := by
  cases k with
  | queued =>
    obtain ⟨e, he, heb⟩ := hk
    exact ⟨e, active_of_queue he, heb⟩
  | evicted =>
    obtain ⟨e, he, -, -, heb, -⟩ := hk
    exact ⟨e, active_of_held he, heb⟩
  | free => exact absurd rfl hkf

/-- A queued or evicted block is not free. -/
theorem Inv.not_free_of_custody (hs : Inv cfg objectSize obj s) (hp : s.blockPool = some p) {b : ℕ}
    {k : Custody} (hk : InCustody s p b k) (hkf : k ≠ .free) (hf : InCustody s p b .free) : False := by
  obtain ⟨e, he, heb⟩ := hk.active hkf
  exact hs.not_free hp he (heb ▸ hf)

/-- An evicted entry is the only one of its block: no queued entry shares it. -/
theorem Inv.not_queued_of_evicted (hs : Inv cfg objectSize obj s) {b : ℕ}
    (hq : InCustody s p b .queued) (hv : InCustody s p b .evicted) : False := by
  obtain ⟨e, he, heb⟩ := hq
  obtain ⟨e', he', hne, -, he'b, -⟩ := hv
  -- two active entries of one block are one entry
  have heq : e = e' :=
    hs.heap.active_inj e e' (active_of_queue he) (active_of_held he') (heb.trans he'b.symm)
  exact hne (heq ▸ he)

/-- **Exactly one custody** for each block the pool created, while the pool
exists. -/
theorem Inv.existsUnique_custody (hs : Inv cfg objectSize obj s) (hp : s.blockPool = some p)
    {b : ℕ} (hb : b < s.blocks.length) : ∃! k, InCustody s p b k := by
  have hP := hs.heap.pool p hp
  -- no two custodies at once
  have hone : ∀ k k', InCustody s p b k → InCustody s p b k' → k = k' := by
    intro k k' hk hk'
    cases k <;> cases k'
    case queued.queued | evicted.evicted | free.free => rfl
    case queued.evicted => exact (hs.not_queued_of_evicted hk hk').elim
    case evicted.queued => exact (hs.not_queued_of_evicted hk' hk).elim
    case queued.free | evicted.free => exact (hs.not_free_of_custody hp hk nofun hk').elim
    case free.queued | free.evicted => exact (hs.not_free_of_custody hp hk' nofun hk).elim
  -- and at least one: the pool's cover
  rcases hP.cover b hb with hf | ⟨e, he, heb⟩
  · exact ⟨.free, hf, fun k hk => hone k .free hk hf⟩
  · by_cases heq : e ∈ s.blockQueue
    · exact ⟨.queued, ⟨e, heq, heb⟩, fun k hk => hone k .queued hk ⟨e, heq, heb⟩⟩
    · -- off the queue, the entry is held, so evicted with a reference
      have heh : e ∈ s.held := he.resolve_left heq
      have hv : InCustody s p b .evicted := by
        refine ⟨e, heh, heq, hs.heap.held_evicted e heh heq, heb, ?_⟩
        rw [← heb]
        have hrc := hs.heap.refCount e he
        rw [BufferedReader.blockOf] at hrc
        rw [hrc]
        exact List.count_pos_iff.2 heh
      exact ⟨.evicted, hv, fun k hk => hone k .evicted hk hv⟩

/-- **Prefetch-block custody.** From a new reader, over every run: nothing
panics (so `Release` never finds its channel full, and no reference count
goes below zero), and while the pool exists the blocks on the heap are
those it created, its free channel holds each at most once and only with
no reference, and each block is in exactly one custody. -/
theorem prefetch_block_custody {globalPermits : ℕ} {s₀ : BufferedReader}
    (h₀ : new cfg objectSize globalPermits = some s₀)
    (hr : Reachable (BufferedReader.step cfg objectSize obj) s₀ s) :
    s.panicked = false ∧ ∀ p, s.blockPool = some p →
      p.totalBlocks = s.blocks.length ∧ p.freeBlocksCh.Nodup ∧
      (∀ b ∈ p.freeBlocksCh, (s.block b).refCount = 0) ∧
      ∀ b < s.blocks.length, ∃! k, InCustody s p b k := by
  have hs := Inv.of_reachable h₀ hr
  refine ⟨hs.panicked, fun p hp => ?_⟩
  have hP := hs.heap.pool p hp
  exact ⟨hP.total, hP.free_nodup, hP.free_refCount, fun b hb => hs.existsUnique_custody hp hb⟩

/-- After a read of six bytes, a block is evicted but still referenced by
the response and the next is queued: the custody holds there. -/
theorem prefetch_block_custody_after_read :
    ∃ s₀ s, new ⟨4, 4, 1, 2, 3⟩ 10 5 = some s₀ ∧
      Reachable (BufferedReader.step ⟨4, 4, 1, 2, 3⟩ 10 Nat.toUInt8) s₀ s ∧
      s.blockPool = some ⟨[], 4, 2, 2⟩ ∧ s.blocks.length = 2 ∧
      (s.panicked = false ∧ ∀ p, s.blockPool = some p →
        p.totalBlocks = s.blocks.length ∧ p.freeBlocksCh.Nodup ∧
        (∀ b ∈ p.freeBlocksCh, (s.block b).refCount = 0) ∧
        ∀ b < s.blocks.length, ∃! k, InCustody s p b k) := by
  refine ⟨_, _, rfl, ⟨[.readAt 0 6 true, .readStep false, .complete 0 true, .complete 1 true,
      .readStep false, .readStep false, .readStep false], rfl⟩, by decide, by decide, ?_⟩
  exact @prefetch_block_custody ⟨4, 4, 1, 2, 3⟩ 10 Nat.toUInt8 _ 5 _ rfl
    ⟨[.readAt 0 6 true, .readStep false, .complete 0 true, .complete 1 true, .readStep false,
      .readStep false, .readStep false], rfl⟩

/-! ## Reads -/

/-- **Buffered reads return the object's bytes.** From a new reader, over
every run in which the download tasks deliver the object `obj`: every
successful response holds `min len (size - offset)` bytes, its slices
concatenated being the object from its offset on; and the queue is a
window of consecutive blocks, the `k`-th starting at `k * B`, ending where
the next prefetch starts. -/
theorem buffered_reads_return_object_bytes {globalPermits : ℕ} {s₀ : BufferedReader}
    (h₀ : new cfg objectSize globalPermits = some s₀)
    (hr : Reachable (BufferedReader.step cfg objectSize obj) s₀ s) :
    (∀ r ∈ s.responses, r.err = none →
      r.size = min r.len (objectSize - r.offset) ∧
      r.data.flatten = (List.range' r.offset r.size).map obj) ∧
    ∃ k, s.nextBlockIndexToPrefetch = k + s.blockQueue.length ∧
      s.blockQueue.map (fun e => (s.blockOf e).absStartOff) =
        (List.range' k s.blockQueue.length).map fun i => some (i * cfg.prefetchBlockSizeBytes) := by
  have hs := Inv.of_reachable h₀ hr
  refine ⟨hs.responses, s.nextBlockIndexToPrefetch - s.blockQueue.length, ?_, hs.heap.starts⟩
  have := hs.heap.le_next
  omega

/-- A read of six bytes of a ten-byte object, over blocks of four, returns
the bytes `0, …, 5` in two slices. -/
theorem buffered_reads_return_object_bytes_six :
    ∃ s₀ s, new ⟨4, 4, 1, 2, 3⟩ 10 5 = some s₀ ∧
      Reachable (BufferedReader.step ⟨4, 4, 1, 2, 3⟩ 10 Nat.toUInt8) s₀ s ∧
      s.responses.map ReadResponse.data = [[[0, 1, 2, 3], [4, 5]]] ∧
      ((∀ r ∈ s.responses, r.err = none →
        r.size = min r.len (10 - r.offset) ∧
        r.data.flatten = (List.range' r.offset r.size).map Nat.toUInt8) ∧
      ∃ k, s.nextBlockIndexToPrefetch = k + s.blockQueue.length ∧
        s.blockQueue.map (fun e => (s.blockOf e).absStartOff) =
          (List.range' k s.blockQueue.length).map fun i => some (i * 4)) := by
  refine ⟨_, _, rfl, ⟨[.readAt 0 6 true, .readStep false, .complete 0 true, .complete 1 true,
      .readStep false, .readStep false, .readStep false], rfl⟩, by decide, ?_⟩
  exact @buffered_reads_return_object_bytes ⟨4, 4, 1, 2, 3⟩ 10 Nat.toUInt8 _ 5 _ rfl
    ⟨[.readAt 0 6 true, .readStep false, .complete 0 true, .complete 1 true, .readStep false,
      .readStep false, .readStep false], rfl⟩

/-! ## References of failed reads -/

/-- **A failed read keeps its references.** A `ReadAt` that fails with an
error other than a fall back, after it took slices, sets no callback, so
its references stay held: in every state after it the wait group of
`Destroy` is positive, `Destroy` ends only by its timeout, and the blocks
of those entries never return to the free channel. -/
theorem failed_read_keeps_references {globalPermits : ℕ} {s₀ t : BufferedReader}
    (h₀ : new cfg objectSize globalPermits = some s₀)
    (hs : Reachable (BufferedReader.step cfg objectSize obj) s₀ s) {r : ReadResponse}
    (hr : r ∈ s.responses) (hcb : r.callback = false) (hheld : r.held ≠ [])
    (ht : Reachable (BufferedReader.step cfg objectSize obj) s t) :
    0 < t.inflightCallbackWg ∧
      BufferedReader.step cfg objectSize obj t (.destroyEnd false) = none ∧
      ∀ p, t.blockPool = some p → ∀ e ∈ r.held, (t.entry e).block ∉ p.freeBlocksCh := by
  obtain ⟨hit, hkeeps⟩ := (Inv.of_reachable h₀ hs).reachable_keeps ht
  -- the response stays, and its references are among those the state holds
  have hsub : ∀ e ∈ r.held, e ∈ t.held := fun e he =>
    List.mem_append_left _ (List.mem_flatMap.2 ⟨r, hkeeps r hr hcb, he⟩)
  obtain ⟨e, he⟩ := List.exists_mem_of_ne_nil _ hheld
  have hwg : 0 < t.inflightCallbackWg := by
    rw [hit.wg]
    exact List.length_pos_of_mem (hsub e he)
  refine ⟨hwg, ?_, fun p hp e he => hit.not_free hp (active_of_held (hsub e he))⟩
  -- without the timeout, the end of `Destroy` waits for the wait group
  rw [BufferedReader.step, if_pos (.inr (.inr (.inr ⟨rfl, by omega⟩)))]

/-- A read of six bytes whose second block fails to download keeps its
reference on the first block. -/
theorem failed_read_keeps_references_second_block :
    ∃ s₀ s, new ⟨4, 4, 1, 2, 3⟩ 10 5 = some s₀ ∧
      Reachable (BufferedReader.step ⟨4, 4, 1, 2, 3⟩ 10 Nat.toUInt8) s₀ s ∧
      (⟨0, 6, some .downloadFailed, 0, [], [0], false⟩ : ReadResponse) ∈ s.responses ∧
      (0 < s.inflightCallbackWg ∧
        BufferedReader.step ⟨4, 4, 1, 2, 3⟩ 10 Nat.toUInt8 s (.destroyEnd false) = none ∧
        ∀ p, s.blockPool = some p → ∀ e ∈ [0], (s.entry e).block ∉ p.freeBlocksCh) := by
  refine ⟨_, _, rfl, ⟨[.readAt 0 6 true, .readStep false, .complete 0 true, .complete 1 false,
      .readStep false, .readStep false], rfl⟩, by decide, ?_⟩
  exact @failed_read_keeps_references ⟨4, 4, 1, 2, 3⟩ 10 Nat.toUInt8 _ 5 _ _ rfl
    ⟨[.readAt 0 6 true, .readStep false, .complete 0 true, .complete 1 false, .readStep false,
      .readStep false], rfl⟩ ⟨0, 6, some .downloadFailed, 0, [], [0], false⟩ (by decide) rfl nofun
    (Reachable.init _)

/-- **A `Destroy` whose wait ended frees every block.** With no reference
held any more, the queue is empty and every block the pool created is in
its free channel, so `ClearFreeBlockChannel` deallocates them all. -/
theorem destroy_frees_every_block {globalPermits : ℕ} {s₀ : BufferedReader}
    (h₀ : new cfg objectSize globalPermits = some s₀)
    (hr : Reachable (BufferedReader.step cfg objectSize obj) s₀ s)
    (hd : s.destroying = true) (hwg : s.inflightCallbackWg = 0) (hp : s.blockPool = some p) :
    s.blockQueue = [] ∧ ∀ b < s.blocks.length, b ∈ p.freeBlocksCh := by
  have hs := Inv.of_reachable h₀ hr
  have hq := (hs.destroying hd).1
  -- the wait group counts the references held
  have hheld : s.held = [] := List.eq_nil_of_length_eq_zero (hs.wg ▸ hwg)
  refine ⟨hq, fun b hb => ?_⟩
  rcases (hs.heap.pool p hp).cover b hb with hf | ⟨e, he, -⟩
  · exact hf
  · -- no entry is active any more
    rcases he with he | he
    · rw [hq] at he
      cases he
    · rw [hheld] at he
      cases he

/-- A read of six bytes, its callback, then `Destroy`: both blocks are free. -/
theorem destroy_frees_every_block_after_read :
    ∃ s₀ s, new ⟨4, 4, 1, 2, 3⟩ 10 5 = some s₀ ∧
      Reachable (BufferedReader.step ⟨4, 4, 1, 2, 3⟩ 10 Nat.toUInt8) s₀ s ∧
      s.destroying = true ∧ s.inflightCallbackWg = 0 ∧ s.blockPool = some ⟨[0, 1], 4, 2, 2⟩ ∧
      (s.blockQueue = [] ∧ ∀ b < s.blocks.length, b ∈ [0, 1]) := by
  refine ⟨_, _, rfl, ⟨[.readAt 0 6 true, .readStep false, .complete 0 true, .complete 1 true,
      .readStep false, .readStep false, .readStep false, .callback 0, .destroy], rfl⟩,
    by decide, by decide, by decide, ?_⟩
  exact @destroy_frees_every_block ⟨4, 4, 1, 2, 3⟩ 10 Nat.toUInt8 _ ⟨[0, 1], 4, 2, 2⟩ 5 _ rfl
    ⟨[.readAt 0 6 true, .readStep false, .complete 0 true, .complete 1 true, .readStep false,
      .readStep false, .readStep false, .callback 0, .destroy], rfl⟩ (by decide) (by decide)
    (by decide)

end BufferedReader

end BufferedRead

end GcsFuse
