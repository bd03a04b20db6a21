import GcsFuse.BufferedWrite.Custody
import GcsFuse.BufferedWrite.Spec
/-!
# The handler streams the file its caller writes

The buffered write handler stands for a `StreamFile` (`Spec.lean`): the
calls `Write`, `Truncate` and `Flush` step that file, and the handler is
right when GCS receives its bytes. Between the calls the bytes sit in
four places, in order: what the writer received, the blocks the uploader
still has to upload, the current block, and what the caller's call still
has to copy. `Agrees` says that these, one after the other, are the
file's bytes after the object's first `initialSize` ones, and that
`totalSize` and `truncatedSize` give the file's extent and size.

A handler can lose bytes: an `Upload` whose writer cannot be created
leaves a count of `wg` behind and its bytes where they are, a canceled
writer drops them, `Destroy` drops the queued blocks, and once an upload
failed the uploader skips the rest. A call that the error of `Get` ends
leaves what it copied in the blocks, where `totalSize` never counts it.
None of these can be undone; `Clean` says that none happened, and
`Agrees` is claimed of clean handlers only. Once
`Flush` passed its check of the upload error, a failed upload leaves what
the writer received a prefix of the file, which is what `Finalize`'s
check of the size needs.
-/

namespace GcsFuse

namespace BufferedWrite

open Block

namespace BufferedWriteHandler

variable (s : BufferedWriteHandler)

/-- The bytes of the blocks `l`, in order. -/
def bytesOf (l : List ℕ) : List UInt8 := (l.map fun b => (s.block b).buffer).flatten

/-- The bytes the uploader still has to upload. -/
def queuedBytes : List UInt8 := s.bytesOf s.queued

/-- What the call on the caller's thread still has to copy. -/
def pendingBytes : List UInt8 := match s.caller with
  | .appending pending _ calls _ => pending ++ calls.flatten
  | _ => []

/-- The bytes of the call that `totalSize` does not count yet. -/
def uncounted : ℕ := match s.caller with
  | .appending pending dataWritten calls _ => dataWritten + (pending ++ calls.flatten).length
  | _ => 0

/-- The caller is in `Flush`, past its check of the upload error. -/
def flushing : Bool := match s.caller with
  | .appending _ _ _ .flush => true
  | .finalizeWait => true
  | _ => false

/-- **Nothing was lost**: `wg` counts the queued blocks and nothing else,
the writer was not canceled, the channel is open, an upload failed, if at
all, only during `Flush`, and no call failed to get a block. -/
structure Clean : Prop where
  wg : s.wg = s.queued.length
  cancelled : s.cancelled = false
  chClosed : s.chClosed = false
  uploadError : s.uploadError = none ∨ s.flushing = true
  gotBlocks : ∀ r ∈ s.replies, r.failedToGetBlock = false

/-- **The handler holds the file**, after the object's first `base`
bytes: the bytes in their four places are the file's, or, once an upload
failed, the writer has a prefix of them; `totalSize` and what the call
has not counted are the extent, and a pending truncation the size. -/
structure Agrees (base : ℕ) (f : StreamFile) : Prop where
  extent : f.extent base = s.totalSize + s.uncounted
  size : f.size = max (f.extent base) s.truncatedSize
  lossless : s.uploadError = none →
    s.written ++ s.queuedBytes ++ s.currentBytes ++ s.pendingBytes = f.content
  sent : s.written <+: f.content

variable {cfg : Config} {s} {t u : BufferedWriteHandler} {base : ℕ} {f : StreamFile}

/-! ## The views -/

theorem bytesOf_congr {l : List ℕ} (h : ∀ c ∈ l, t.block c = s.block c) : t.bytesOf l = s.bytesOf l := by
  unfold bytesOf
  rw [List.map_congr_left fun c hc => congrArg MemoryBlock.buffer (h c hc)]

theorem bytesOf_append (l l' : List ℕ) : s.bytesOf (l ++ l') = s.bytesOf l ++ s.bytesOf l' := by
  simp [bytesOf]

theorem bytesOf_cons (b : ℕ) (l : List ℕ) : s.bytesOf (b :: l) = (s.block b).buffer ++ s.bytesOf l := by
  simp [bytesOf]

theorem currentBytes_congr (hc : t.current = s.current)
    (hb : ∀ b, s.current = some b → t.block b = s.block b) : t.currentBytes = s.currentBytes := by
  unfold currentBytes
  rw [hc]
  split
  · rename_i b hcur
    rw [hb b hcur]
  · rfl

theorem uncounted_eq : s.uncounted = (match s.caller with
    | .appending _ dataWritten _ _ => dataWritten
    | _ => 0) + s.pendingBytes.length := by
  unfold uncounted pendingBytes
  split <;> rfl

/-- `writeDataForTruncatedSize` writes the zeros up to the size. -/
theorem flatten_zeroChunks : ∀ (fuel diff : ℕ), diff ≤ fuel →
    (zeroChunks fuel diff).flatten = List.replicate diff 0
  | 0, diff, h => by
    rw [Nat.le_zero.1 h]
    rfl
  | fuel + 1, diff, h => by
    unfold zeroChunks
    split
    · rename_i h0
      rw [h0]
      rfl
    · rename_i h0
      have hc : 0 < chunkSize := by decide
      rw [List.flatten_cons, flatten_zeroChunks fuel _ (by omega), ← List.replicate_add]
      congr 1
      omega

theorem flatten_truncationChunks :
    s.truncationChunks.flatten = List.replicate (s.truncatedSize - s.totalSize).toNat 0 := by
  unfold truncationChunks
  split
  · rename_i h
    rw [Int.toNat_of_nonpos (by omega)]
    rfl
  · exact flatten_zeroChunks _ _ (Nat.le_refl _)

theorem truncationChunks_eq_nil : s.truncationChunks = [] ↔ s.truncatedSize ≤ s.totalSize := by
  constructor
  · intro h
    have := congrArg List.flatten h
    rw [flatten_truncationChunks, List.flatten_nil, List.replicate_eq_nil_iff] at this
    omega
  · intro h
    unfold truncationChunks
    rw [if_pos (by omega)]

/-! ## Frames -/

/-- A step that moves no byte and keeps the extent keeps the agreement. -/
theorem Agrees.of_eq (h : s.Agrees base f) (hsize : t.totalSize + t.uncounted = s.totalSize + s.uncounted)
    (htr : max (f.extent base) t.truncatedSize = max (f.extent base) s.truncatedSize)
    (hw : t.written = s.written)
    (hbytes : t.queuedBytes ++ t.currentBytes ++ t.pendingBytes =
      s.queuedBytes ++ s.currentBytes ++ s.pendingBytes)
    (he : t.uploadError = none → s.uploadError = none) : t.Agrees base f where
  extent := h.extent.trans hsize.symm
  size := h.size.trans htr.symm
  lossless := fun hn => by
    rw [← h.lossless (he hn), hw]
    simp only [List.append_assoc] at hbytes ⊢
    rw [hbytes]
  sent := hw ▸ h.sent

/-- A step that changes none of what `Clean` reads, or only makes the
caller leave `Flush`, came from a clean handler if it leads to one. -/
theorem Clean.of_eq (h : t.Clean) (hwq : t.wg = t.queued.length → s.wg = s.queued.length)
    (hc : t.cancelled = false → s.cancelled = false) (hch : t.chClosed = s.chClosed)
    (he : t.uploadError = none → s.uploadError = none)
    (hf : t.flushing = true → s.flushing = true ∨ s.uploadError = none)
    (hrep : s.replies ⊆ t.replies) : s.Clean where
  wg := hwq h.wg
  cancelled := hc h.cancelled
  chClosed := hch ▸ h.chClosed
  uploadError := by
    rcases h.uploadError with h' | h'
    · exact .inl (he h')
    · rcases hf h' with h'' | h''
      · exact .inr h''
      · exact .inl h''
  gotBlocks := fun r hr => h.gotBlocks r (hrep hr)

/-! ## The refinement -/

/-- **The refinement invariant**: the custody invariant, a canceled
writer exists, and a clean handler holds the file `f`. -/
structure Refines (cfg : Config) (f : StreamFile) (s : BufferedWriteHandler) : Prop where
  inv : Inv cfg s
  cancelled : s.cancelled = true → s.writer.isSome
  agrees : s.Clean → s.Agrees (initialSize cfg) f

/-- A count of `wg` without a block is never given back. -/
theorem not_clean_of_leak (hs : Inv cfg s) (hwg : t.wg = s.wg + 1) (hq : t.queued = s.queued) :
    ¬ t.Clean := fun h => by
  have := hs.wg
  have := h.wg
  rw [hwg, hq] at this
  omega

/-- A step that moves no byte, changes no size, and of what `Clean` reads
changes at most the caller, out of `Flush`. -/
theorem Refines.of_eq (hr : Refines cfg f s) (hinv : Inv cfg t)
    (hcw : t.cancelled = true → t.writer.isSome) (hT : t.totalSize + t.uncounted = s.totalSize + s.uncounted)
    (htr : ∀ E : ℤ, 0 ≤ E → s.totalSize + s.uncounted ≤ E →
      max E t.truncatedSize = max E s.truncatedSize) (hw : t.written = s.written)
    (hbytes : t.queuedBytes ++ t.currentBytes ++ t.pendingBytes =
      s.queuedBytes ++ s.currentBytes ++ s.pendingBytes)
    (hwq : t.wg = t.queued.length → s.wg = s.queued.length) (hc : t.cancelled = false → s.cancelled = false)
    (hch : t.chClosed = s.chClosed) (he : t.uploadError = none → s.uploadError = none)
    (hf : t.flushing = true → s.flushing = true ∨ s.uploadError = none)
    (hrep : s.replies ⊆ t.replies) : Refines cfg f t where
  inv := hinv
  cancelled := hcw
  agrees := fun hct =>
    have ha := hr.agrees (hct.of_eq hwq hc hch he hf hrep)
    ha.of_eq hT (htr _ (StreamFile.extent_nonneg _ _) (Int.le_of_eq ha.extent.symm)) hw hbytes he

/-- A caller with nothing uncounted has nothing to copy. -/
theorem pendingBytes_eq_nil (h0 : s.uncounted = 0) : s.pendingBytes = [] := by
  rw [uncounted_eq] at h0
  exact List.eq_nil_of_length_eq_zero (by omega)

/-- What the views read of the caller. -/
theorem views_of_caller (h : t.caller = s.caller) :
    t.uncounted = s.uncounted ∧ t.pendingBytes = s.pendingBytes ∧ t.flushing = s.flushing := by
  unfold uncounted pendingBytes flushing
  rw [h]
  exact ⟨rfl, rfl, rfl⟩

/-- A handler that is not clean refines every file. -/
theorem Refines.unclean {f' : StreamFile} (hinv : Inv cfg t) (hcw : t.cancelled = true → t.writer.isSome)
    (hnc : ¬ t.Clean) : Refines cfg f' t :=
  ⟨hinv, hcw, fun h => absurd h hnc⟩

/-- A file the handler holds only when it holds `f` is `f`. -/
theorem Refines.file (hr : Refines cfg f s) {f' : StreamFile}
    (h : s.Clean → s.Agrees (initialSize cfg) f → f' = f) : Refines cfg f' s :=
  ⟨hr.inv, hr.cancelled, fun hc => (h hc (hr.agrees hc)) ▸ hr.agrees hc⟩

theorem Refines.reply (hr : Refines cfg f s) (h0 : s.uncounted = 0) (r : Reply) :
    Refines cfg f (s.reply r) := by
  have hp : s.pendingBytes = [] := pendingBytes_eq_nil h0
  refine hr.of_eq (hr.inv.reply r) hr.cancelled ?_ (fun _ _ _ => rfl) rfl ?_ id id rfl id
    (fun h => by cases h) (List.subset_append_left _ _)
  · change s.totalSize + ((0 : ℕ) : ℤ) = s.totalSize + s.uncounted
    rw [h0]
  · change s.queuedBytes ++ s.currentBytes ++ [] = s.queuedBytes ++ s.currentBytes ++ s.pendingBytes
    rw [hp]

/-- Clearing the free channel moves no byte: no free block is queued or
current. -/
theorem Refines.clear (hr : Refines cfg f s) (r : Bool) :
    Refines cfg f (s.clearFreeBlockChannel r).1 := by
  have hinv := hr.inv.clear r
  obtain ⟨blocks, blockPool, globalPermits, ht, hkeep⟩ := hr.inv.clear_eq r
  rw [ht] at hinv ⊢
  have hblk : ∀ c ∈ s.current.toList ++ s.queued, blocks.getD c ⟨[], false⟩ = s.block c :=
    fun c hc => hkeep c fun hf => hr.inv.free_disjoint hf hc
  refine hr.of_eq hinv hr.cancelled rfl (fun _ _ _ => rfl) rfl ?_ id id rfl id (fun h => .inl h)
    (List.Subset.refl _)
  have hq : ({ s with blocks := blocks, blockPool := blockPool, globalPermits := globalPermits } :
      BufferedWriteHandler).queuedBytes = s.queuedBytes :=
    bytesOf_congr fun c hc => hblk c (List.mem_append_right _ hc)
  have hc : ({ s with blocks := blocks, blockPool := blockPool, globalPermits := globalPermits } :
      BufferedWriteHandler).currentBytes = s.currentBytes :=
    currentBytes_congr rfl fun b hb => hblk b (by simp [hb])
  rw [hq, hc]
  rfl

/-! ## Sending a block -/

/-- A count of `wg` leaked: whatever the file, the handler is not clean. -/
theorem Refines.leak (hr : Refines cfg f s) {f' : StreamFile} (hinv : Inv cfg t)
    (hc : t.cancelled = s.cancelled) (hw : t.writer = s.writer) (hwg : t.wg = s.wg + 1)
    (hq : t.queued = s.queued) : Refines cfg f' t where
  inv := hinv
  cancelled := fun h => hw ▸ hr.cancelled (hc ▸ h)
  agrees := fun h => absurd h (not_clean_of_leak hr.inv hwg hq)

/-- A writer `ensureWriter` creates has received nothing. -/
theorem Refines.ensured (hr : Refines cfg f s) {v : BufferedWriteHandler}
    (hv : v = s ∨ (s.writer = none ∧
      v = { s with writer := some ⟨writerOffset cfg, []⟩, cancelled := false })) :
    Refines cfg f v := by
  rcases hv with rfl | ⟨hw, rfl⟩
  · exact hr
  · have hc : s.cancelled = false := by
      cases hsc : s.cancelled
      · rfl
      · have := hr.cancelled hsc
        simp [hw] at this
    exact hr.of_eq (hr.inv.ensured (.inr ⟨hw, rfl⟩)).1 (fun h => by cases h) rfl (fun _ _ _ => rfl)
      (by simp [written, hw]) rfl id (fun _ => hc) rfl id (fun h => .inl h) (List.Subset.refl _)

/-- **`Upload` sends `current`**: its bytes go to the end of the queue. -/
theorem Refines.send (hr : Refines cfg f s) {b : ℕ} (hcur : s.current = some b) :
    Refines cfg f
      { s with
        wg := s.wg + 1, uploaderStarted := true, uploadCh := s.uploadCh ++ [b], current := none } := by
  refine hr.of_eq (hr.inv.send hcur) hr.cancelled rfl (fun _ _ _ => rfl) rfl ?_ (fun h => ?_) id rfl
    id (fun h => .inl h) (List.Subset.refl _)
  · change s.bytesOf (s.uploading.toList ++ (s.uploadCh ++ [b])) ++ [] ++ s.pendingBytes =
      s.bytesOf (s.uploading.toList ++ s.uploadCh) ++ s.currentBytes ++ s.pendingBytes
    simp [bytesOf, currentBytes, hcur]
  · simp only [queued, List.length_append, List.length_singleton] at h ⊢
    omega

theorem Refines.upload_ok (hr : Refines cfg f s) {b : ℕ} {ok : Bool} (hcur : s.current = some b)
    (h : s.upload cfg b ok = some (t, none)) : Refines cfg f { t with current := none } := by
  rcases upload_eq_some h with ⟨he, -⟩ | ⟨-, -, -, v, hv, -, rfl⟩
  · cases he
  · exact (hr.ensured hv).send (((hr.inv.ensured hv).2).trans hcur)

theorem Refines.uploadFull (hr : Refines cfg f s) {b : ℕ} {after : AfterAppend} {ok : Bool}
    (hcur : s.current = some b) (h : s.uploadFull cfg b after ok = some t) : Refines cfg f t := by
  have hinv := hr.inv.uploadFull hcur h
  unfold BufferedWriteHandler.uploadFull at h
  split at h
  · obtain ⟨⟨u, e⟩, hu, rfl⟩ := Option.map_eq_some_iff.1 h
    cases e with
    | some e =>
      rcases upload_eq_some hu with ⟨-, -, rfl⟩ | ⟨he, -⟩
      · cases after <;> exact hr.leak hinv rfl rfl rfl rfl
      · cases he
    | none => exact hr.upload_ok hcur hu
  · cases h
    exact hr

/-! ## A call of `appendBuffer` -/

theorem ensureWriter_setCaller (ok : Bool) (c : Caller) :
    ({ s with caller := c }).ensureWriter cfg ok =
      ({ (s.ensureWriter cfg ok).1 with caller := c }, (s.ensureWriter cfg ok).2) := by
  obtain ⟨_, _, _, _, _, _, _, _, _, _, writer, _, _, _, _, _⟩ := s
  cases writer <;> cases ok <;> rfl

theorem upload_setCaller (b : ℕ) (ok : Bool) (c : Caller) :
    ({ s with caller := c }).upload cfg b ok =
      (s.upload cfg b ok).map fun (u, e) => ({ u with caller := c }, e) := by
  obtain ⟨_, _, _, _, _, _, uploadCh, chClosed, _, _, writer, _, _, _, _, _⟩ := s
  by_cases hc : chClosed = true ∨ cfg.maxBlocksPerFile ≤ uploadCh.length <;>
    cases writer <;> cases ok <;> simp [upload, ensureWriter, hc]

/-- `flushCurrent` does not read the caller: it only sets it. -/
theorem flushCurrent_setCaller (ok : Bool) (c : Caller) :
    ({ s with caller := c }).flushCurrent cfg ok = s.flushCurrent cfg ok := by
  unfold flushCurrent
  split
  · rename_i hc
    rw [show s.current = none from hc]
  · rename_i b hc
    conv_rhs => rw [show s.current = some b from hc]
    dsimp only
    rw [upload_setCaller]
    cases s.upload cfg b ok with
    | none => rfl
    | some r =>
      obtain ⟨u, e⟩ := r
      cases e <;> rfl

/-- What `addWritten` changes: the size, and a reached truncation. -/
theorem addWritten_eq (dataWritten : ℕ) :
    ∃ tr, s.addWritten dataWritten =
      { s with totalSize := s.totalSize + dataWritten, truncatedSize := tr } ∧
      (tr = s.truncatedSize ∨ (tr = -1 ∧ s.truncatedSize ≤ s.totalSize + dataWritten)) := by
  unfold addWritten
  dsimp only
  split
  · rename_i h
    exact ⟨-1, rfl, .inr ⟨rfl, by omega⟩⟩
  · exact ⟨s.truncatedSize, rfl, .inl rfl⟩

/-- Whether a call is in `Flush` depends on what it does after the copy. -/
theorem flushing_eq_of_after {pending pending' : List UInt8} {dataWritten dataWritten' : ℕ}
    {calls calls' : List (List UInt8)} {after : AfterAppend}
    (ht : t.caller = .appending pending' dataWritten' calls' after)
    (hs : s.caller = .appending pending dataWritten calls after) : t.flushing = s.flushing := by
  unfold flushing
  rw [ht, hs]
  cases after <;> rfl

/-- A step that only sets the caller to one that has the same bytes to
copy and counts them the same. -/
theorem Refines.setCaller (hr : Refines cfg f s) {c : Caller} (hinv : Inv cfg { s with caller := c })
    (hT : ({ s with caller := c } : BufferedWriteHandler).uncounted = s.uncounted)
    (hp : ({ s with caller := c } : BufferedWriteHandler).pendingBytes = s.pendingBytes)
    (hf : ({ s with caller := c } : BufferedWriteHandler).flushing = true →
      s.flushing = true ∨ s.uploadError = none) : Refines cfg f { s with caller := c } :=
  hr.of_eq hinv hr.cancelled (by rw [hT]) (fun _ _ _ => rfl) rfl (by rw [hp]; rfl) id id rfl id hf
    (List.Subset.refl _)

/-- **`appendBuffer` counts what it copied**: at the end of a call the
bytes move from the caller's count to `totalSize`, and a truncation they
reach is done. -/
theorem Refines.addWritten (hr : Refines cfg f s) {dataWritten : ℕ} {calls : List (List UInt8)}
    {after : AfterAppend} (hc : s.caller = .appending [] dataWritten calls after) :
    Refines cfg f { s.addWritten dataWritten with caller := .appending [] 0 calls after } := by
  have hinv := (hr.inv.addWritten dataWritten).setCaller (c := .appending [] 0 calls after)
    fun h => by cases h
  obtain ⟨tr, ht, htr⟩ := addWritten_eq (s := s) dataWritten
  rw [ht] at hinv ⊢
  refine hr.of_eq hinv hr.cancelled ?_ (fun E hE hT => ?_) rfl ?_ id id rfl id
    (fun h => .inl ((flushing_eq_of_after rfl hc).symm.trans h)) (List.Subset.refl _)
  · simp only [uncounted, hc, List.nil_append]
    omega
  · rcases htr with rfl | ⟨rfl, hle⟩
    · rfl
    · simp only [uncounted, hc] at hT
      show max E (-1) = max E s.truncatedSize
      omega
  · simp only [pendingBytes, hc]
    rfl

/-- **A turn of the copy loop**: what fits of the pending bytes moves to
the current block. -/
theorem Refines.copyInto (hr : Refines cfg f s) {pending : List UInt8} {dataWritten : ℕ}
    {calls : List (List UInt8)} {after : AfterAppend}
    (hc : s.caller = .appending pending dataWritten calls after) (hp : pending ≠ [])
    {created : Bool} {b : ℕ} (hcb : s.currentBlock created = some (u, some b)) :
    Refines cfg f (u.copyInto cfg b pending dataWritten calls after) := by
  have hinv : Inv cfg (u.copyInto cfg b pending dataWritten calls after) := hr.inv.copyInto hcb hp
  obtain ⟨⟨blocks, blockPool, globalPermits, hu⟩, hbl, hbq, hcur, hq⟩ := hr.inv.currentBlock_eq hcb
  -- the queued blocks keep their bytes; `current` gains what fits
  have hqb : (u.copyInto cfg b pending dataWritten calls after).queuedBytes = s.queuedBytes := by
    have hqu : (u.copyInto cfg b pending dataWritten calls after).queued = s.queued := by
      rw [hu]
      rfl
    unfold queuedBytes
    rw [hqu]
    exact bytesOf_congr fun c hc => by
      rw [copyInto_block hbl, if_neg fun h : b = c => hbq (h ▸ hc), hq c hc]
  have hcb : (u.copyInto cfg b pending dataWritten calls after).currentBytes =
      s.currentBytes ++ pending.take (min (cfg.blockSize - (u.block b).size) pending.length) := by
    show ((u.copyInto cfg b pending dataWritten calls after).block b).buffer = _
    rw [copyInto_block hbl, if_pos rfl, hcur]
  have hnp : min (cfg.blockSize - (u.block b).size) pending.length ≤ pending.length :=
    Nat.min_le_right _ _
  subst hu
  refine hr.of_eq hinv hr.cancelled ?_ (fun _ _ _ => rfl) rfl ?_ id id rfl id
    (fun h => .inl ((flushing_eq_of_after rfl hc).symm.trans h)) (List.Subset.refl _)
  · simp only [uncounted, hc, BufferedWriteHandler.copyInto, List.length_append, List.length_drop]
    omega
  · rw [hqb, hcb]
    simp only [pendingBytes, hc, BufferedWriteHandler.copyInto, List.append_assoc]
    rw [← List.append_assoc (List.take _ _), List.take_append_drop]

/-- `Upload` does not touch the caller, the sizes or the upload error. -/
theorem upload_fields {b : ℕ} {ok : Bool} {e : Option WriteError} (h : s.upload cfg b ok = some (t, e)) :
    t.caller = s.caller ∧ t.uploadError = s.uploadError ∧ t.totalSize = s.totalSize ∧
      t.truncatedSize = s.truncatedSize := by
  rcases upload_eq_some h with ⟨-, -, rfl⟩ | ⟨-, -, -, v, hv, -, rfl⟩
  · exact ⟨rfl, rfl, rfl, rfl⟩
  · rcases hv with rfl | ⟨-, rfl⟩ <;> exact ⟨rfl, rfl, rfl, rfl⟩

/-- **The rest of `Flush`**: the current block goes to the uploader and
the caller waits in `Finalize`. -/
theorem Refines.flushCurrent (hr : Refines cfg f s) (h0 : s.uncounted = 0)
    (hfl : s.flushing = true ∨ s.uploadError = none) {ok : Bool} (h : s.flushCurrent cfg ok = some t) :
    Refines cfg f t := by
  have hinv := hr.inv.flushCurrent h
  unfold BufferedWriteHandler.flushCurrent at h
  split at h
  · cases h
    exact hr.setCaller hinv (by rw [h0]; rfl) (pendingBytes_eq_nil h0).symm (fun _ => hfl)
  · rename_i b hcur
    obtain ⟨⟨u, e⟩, hu, rfl⟩ := Option.map_eq_some_iff.1 h
    cases e with
    | some e =>
      rcases upload_eq_some hu with ⟨-, -, rfl⟩ | ⟨he, -⟩
      · exact hr.leak hinv rfl rfl rfl rfl
      · cases he
    | none =>
      obtain ⟨hc, he, -, -⟩ := upload_fields hu
      obtain ⟨hT, hp, hf⟩ := views_of_caller (t := { u with current := none }) hc
      refine (hr.upload_ok hcur hu).setCaller hinv ?_ ?_ (fun _ => ?_)
      · rw [hT, h0]
        rfl
      · rw [hp, pendingBytes_eq_nil h0]
        rfl
      · rw [hf]
        exact he ▸ hfl

/-- **The end of a call of `appendBuffer`**: the next call, the reply of
`Write`, or the rest of `Flush`. -/
theorem Refines.appendEnd (hr : Refines cfg f s) {dataWritten : ℕ} {calls : List (List UInt8)}
    {after : AfterAppend} {ok : Bool} (hc : s.caller = .appending [] dataWritten calls after)
    (h : s.appendEnd cfg dataWritten calls after ok = some t) : Refines cfg f t := by
  have hinv := hr.inv.appendEnd h
  have hw := hr.addWritten hc
  unfold BufferedWriteHandler.appendEnd at h
  split at h
  · cases h
    exact hw.setCaller hinv (by simp [uncounted]) (by simp [pendingBytes])
      (fun h => .inl ((flushing_eq_of_after rfl rfl).symm.trans h))
  · cases h
    exact hw.reply (by simp [uncounted]) _
  · rw [← flushCurrent_setCaller (c := .appending [] 0 [] .flush)] at h
    exact hw.flushCurrent (by simp [uncounted]) (.inl rfl) h

/-- A call that the error of `Get` ended is on record: the handler is no
longer clean. -/
theorem not_clean_appendFailed (after : AfterAppend) : ¬ (s.appendFailed after .getBlock).Clean := by
  intro h
  -- the call's own reply is the error
  obtain ⟨r, hr, hf⟩ : ∃ r ∈ (s.appendFailed after .getBlock).replies, r.failedToGetBlock = true := by
    cases after <;> exact ⟨_, List.mem_append_right _ (List.mem_singleton_self _), rfl⟩
  rw [h.gotBlocks r hr] at hf
  cases hf

/-- **A turn of `appendBuffer`'s loop, or its end.** -/
theorem Refines.appendStep (hr : Refines cfg f s) {pending : List UInt8} {dataWritten : ℕ}
    {calls : List (List UInt8)} {after : AfterAppend} {ok created : Bool}
    (hc : s.caller = .appending pending dataWritten calls after)
    (h : s.appendStep cfg pending dataWritten calls after ok created = some t) : Refines cfg f t := by
  have hinv := hr.inv.appendStep h
  unfold BufferedWriteHandler.appendStep at h
  split at h
  · exact hr.appendEnd hc h
  · obtain ⟨⟨u, b⟩, hcb, h⟩ := Option.bind_eq_some_iff.1 h
    cases b with
    | some b => exact (hr.copyInto hc (List.cons_ne_nil _ _) hcb).uploadFull rfl h
    | none =>
      -- `Get` failed: what the call copied stays, uncounted
      obtain ⟨permits, rfl⟩ := currentBlock_eq_failed hcb
      obtain rfl := Option.some.inj h
      exact Refines.unclean hinv (by cases after <;> exact hr.cancelled) (not_clean_appendFailed after)

/-! ## The calls -/

/-- A call that makes the caller copy `c :: rest` appends those bytes to
the file the handler holds. -/
theorem Agrees.append (h : s.Agrees base f) (h0 : s.uncounted = 0) {f' : StreamFile}
    {c : List UInt8} {rest : List (List UInt8)} {after : AfterAppend}
    (hcontent : f'.content = f.content ++ (c :: rest).flatten)
    (hsize : f'.size = max (f.extent base + (c :: rest).flatten.length) s.truncatedSize) :
    ({ s with caller := .appending c 0 rest after } : BufferedWriteHandler).Agrees base f' := by
  have hp := pendingBytes_eq_nil h0
  have hE : f'.extent base = f.extent base + (c :: rest).flatten.length := by
    simp only [StreamFile.extent, hcontent, List.length_append]
    omega
  refine ⟨?_, by rw [hsize, hE], fun hn => ?_, h.sent.trans ?_⟩
  · rw [hE, h.extent, h0]
    simp only [uncounted, List.flatten_cons, List.length_append]
    omega
  · rw [hcontent, ← h.lossless hn, hp]
    simp only [List.append_nil, List.flatten_cons, List.append_assoc]
    rfl
  · rw [hcontent]
    exact List.prefix_append _ _

/-- **A write both refuse**: out of order for the handler, and neither at
the end nor at a pending size for the file. -/
theorem Agrees.write_refused (h : s.Agrees base f) (h0 : s.uncounted = 0) {offset : ℤ}
    (data : List UInt8)
    (hrej : offset ≠ s.totalSize ∧ (offset ≠ s.truncatedSize ∨ s.totalSize ≥ s.truncatedSize)) :
    f.write base offset data = f := by
  have hE := h.extent
  have hS := h.size
  rw [h0] at hE
  unfold StreamFile.write
  rw [if_neg (by omega), if_neg (by omega)]

/-- **A write both accept**: at the end, or at a pending size with the
zeros up to it first. -/
theorem Agrees.write_accepted (h : s.Agrees base f) (h0 : s.uncounted = 0) {offset : ℤ}
    (data : List UInt8)
    (hacc : ¬(offset ≠ s.totalSize ∧ (offset ≠ s.truncatedSize ∨ s.totalSize ≥ s.truncatedSize))) :
    let zeros := if offset = s.truncatedSize then (s.truncatedSize - s.totalSize).toNat else 0
    f.write base offset data =
      ⟨f.content ++ List.replicate zeros 0 ++ data,
        max (f.extent base + zeros + data.length) s.truncatedSize⟩ := by
  intro zeros
  have hE := h.extent
  have hS := h.size
  rw [h0] at hE
  unfold StreamFile.write
  split
  · -- at the end: no zeros
    rename_i h1
    have hz : zeros = 0 := by
      simp only [zeros]
      split <;> omega
    rw [hz]
    simp only [List.replicate_zero, List.append_nil, StreamFile.mk.injEq, true_and]
    omega
  · split
    · -- at the pending size
      rename_i h1 h2
      have hz : zeros = (f.size - f.extent base).toNat := by
        simp only [zeros]
        rw [if_pos (by omega)]
        omega
      rw [hz]
      simp only [StreamFile.mk.injEq, true_and]
      omega
    · rename_i h1 h2
      omega

/-- **`Write`**: refused on an upload error or out of order, else the
caller copies the zeros up to a pending size, if it writes there, and the
data. -/
theorem Refines.write (hr : Refines cfg f s) (hidle : s.caller = .idle) (offset : ℤ)
    (data : List UInt8) : Refines cfg (f.write (initialSize cfg) offset data) (s.write offset data) := by
  have h0 : s.uncounted = 0 := by simp [uncounted, hidle]
  unfold BufferedWriteHandler.write
  split
  · -- the upload failed: the handler is no longer clean
    rename_i e he
    refine Refines.unclean (hr.inv.reply _) hr.cancelled fun hc => ?_
    rcases hc.uploadError with h | h
    · exact absurd (show s.uploadError = none from h) (by rw [he]; simp)
    · cases h
  · rename_i hn
    split
    · rename_i hrej
      exact (hr.file fun _ ha => ha.write_refused h0 data hrej).reply h0 _
    · rename_i hacc
      dsimp only
      -- the zeros, if any, then the data
      have hflat : ((if offset = s.truncatedSize then s.truncationChunks else []) ++ [data]).flatten =
          List.replicate (if offset = s.truncatedSize then (s.truncatedSize - s.totalSize).toNat else 0) 0
            ++ data := by
        split
        · rw [List.flatten_append, flatten_truncationChunks]
          simp
        · simp
      generalize hcalls : (if offset = s.truncatedSize then s.truncationChunks else []) ++ [data] = calls
        at hflat
      cases calls with
      | nil => simp at hcalls
      | cons c rest =>
        refine ⟨hr.inv.setCaller (fun h => by cases h), hr.cancelled, fun hct => ?_⟩
        have ha := hr.agrees (hct.of_eq id id rfl id (fun _ => .inr hn) (List.Subset.refl _))
        rw [ha.write_accepted h0 data hacc]
        refine ha.append h0 (by rw [hflat, List.append_assoc]) ?_
        rw [hflat, List.length_append, List.length_replicate]
        push_cast
        omega

/-- **`Truncate`**: refused below the written size, else the size. -/
theorem Refines.truncate (hr : Refines cfg f s) (hidle : s.caller = .idle) (size : ℤ) :
    Refines cfg (f.truncate (initialSize cfg) size) (s.truncate size) := by
  have h0 : s.uncounted = 0 := by simp [uncounted, hidle]
  unfold BufferedWriteHandler.truncate
  split
  · rename_i hlt
    refine (hr.file fun _ ha => ?_).reply h0 _
    unfold StreamFile.truncate
    rw [if_pos (by rw [ha.extent, h0]; simpa using hlt)]
  · rename_i hge
    have hinv : Inv cfg { s with truncatedSize := size } :=
      hr.inv.congr rfl rfl rfl rfl rfl (Nat.le_refl _) hr.inv.offset hr.inv.finalizeWait
    have ht : Refines cfg (f.truncate (initialSize cfg) size) { s with truncatedSize := size } :=
      ⟨hinv, hr.cancelled, fun hct => ?_⟩
    · exact ht.reply h0 _
    have ha := hr.agrees (hct.of_eq id id rfl id (fun h => .inl h) (List.Subset.refl _))
    have hE : f.extent (initialSize cfg) = s.totalSize := by rw [ha.extent, h0]; simp
    unfold StreamFile.truncate
    rw [if_neg (by omega)]
    exact ⟨ha.extent, show size = max (f.extent (initialSize cfg)) size by omega, ha.lossless, ha.sent⟩

/-- **`Flush`**: refused on an upload error, else the caller copies the
zeros up to a pending size, then the rest of `Flush`. -/
theorem Refines.flush (hr : Refines cfg f s) (hidle : s.caller = .idle) {ok : Bool}
    (h : s.flush cfg ok = some t) : Refines cfg (f.flush (initialSize cfg)) t := by
  have h0 : s.uncounted = 0 := by simp [uncounted, hidle]
  unfold BufferedWriteHandler.flush at h
  split at h
  · rename_i e he
    cases h
    refine Refines.unclean (hr.inv.reply _) hr.cancelled fun hc => ?_
    rcases hc.uploadError with h | h
    · exact absurd (show s.uploadError = none from h) (by rw [he]; simp)
    · cases h
  · rename_i hn
    split at h
    · -- the zeros up to the pending size
      rename_i c rest hch
      cases h
      refine ⟨hr.inv.setCaller (fun h => by cases h), hr.cancelled, fun hct => ?_⟩
      have ha := hr.agrees (hct.of_eq id id rfl id (fun _ => .inr hn) (List.Subset.refl _))
      have hE := ha.extent
      have hS := ha.size
      rw [h0] at hE
      have hflat : (c :: rest).flatten = List.replicate (s.truncatedSize - s.totalSize).toNat 0 := by
        rw [← hch, flatten_truncationChunks]
      refine ha.append h0 ?_ ?_
      · rw [hflat]
        simp only [StreamFile.flush, List.append_cancel_left_eq]
        congr 1
        omega
      · rw [hflat, List.length_replicate]
        simp only [StreamFile.flush]
        omega
    · -- no zeros: the file is already as long as its size
      rename_i hch
      have hle := truncationChunks_eq_nil.1 hch
      refine (hr.file fun _ ha => ?_).flushCurrent h0 (.inr hn) h
      have hE := ha.extent
      have hS := ha.size
      rw [h0] at hE
      have hz : (f.size - f.extent (initialSize cfg)).toNat = 0 := by omega
      simp [StreamFile.flush, hz]

theorem Refines.ensureWriter (hr : Refines cfg f s) {ok : Bool} {e : Option WriteError}
    (h : s.ensureWriter cfg ok = (t, e)) : Refines cfg f t ∧ t.caller = s.caller := by
  rcases ensureWriter_eq h with ⟨-, -, rfl⟩ | ⟨-, hw, rfl⟩ | ⟨-, -, rfl⟩
  · exact ⟨hr, rfl⟩
  · exact ⟨hr.ensured (.inr ⟨hw, rfl⟩), rfl⟩
  · exact ⟨hr, rfl⟩

/-- A call that records an upload error and returns is not clean. -/
theorem Refines.failed (hr : Refines cfg f s) {f' : StreamFile} (e : UploadError) (r : Reply) :
    Refines cfg f' ({ s with uploadError := some e }.reply r) := by
  have hinv : Inv cfg { s with uploadError := some e } :=
    hr.inv.congr rfl rfl rfl rfl rfl (Nat.le_refl _) hr.inv.offset hr.inv.finalizeWait
  refine Refines.unclean (hinv.reply r) hr.cancelled fun hc => ?_
  rcases hc.uploadError with h | h <;> cases h

/-- **`Sync`, up to its wait**: a non-empty current block goes to the
uploader. -/
theorem Refines.sync (hr : Refines cfg f s) (hidle : s.caller = .idle) {ok : Bool}
    (h : s.sync cfg ok = some t) : Refines cfg f t := by
  have h0 : s.uncounted = 0 := by simp [uncounted, hidle]
  have hinv := hr.inv.sync h
  unfold BufferedWriteHandler.sync at h
  split at h
  · rename_i b hcur
    split at h
    · obtain ⟨⟨u, e⟩, hu, rfl⟩ := Option.map_eq_some_iff.1 h
      cases e with
      | some e =>
        rcases upload_eq_some hu with ⟨-, -, rfl⟩ | ⟨he, -⟩
        · exact hr.leak hinv rfl rfl rfl rfl
        · cases he
      | none =>
        obtain ⟨hc, -, -, -⟩ := upload_fields hu
        obtain ⟨hT, hp, -⟩ := views_of_caller (t := { u with current := none }) hc
        refine (hr.upload_ok hcur hu).setCaller hinv ?_ ?_ (fun h => by cases h)
        · rw [hT, h0]
          rfl
        · rw [hp, pendingBytes_eq_nil h0]
          rfl
    · cases h
      exact hr.setCaller hinv (by rw [h0]; rfl) (pendingBytes_eq_nil h0).symm (fun h => by cases h)
  · cases h
    exact hr.setCaller hinv (by rw [h0]; rfl) (pendingBytes_eq_nil h0).symm (fun h => by cases h)

theorem Refines.syncRelease (hr : Refines cfg f s) (h0 : s.uncounted = 0) (o : Option ℤ) :
    Refines cfg f (s.syncRelease o) := by
  have hc := hr.clear false
  obtain ⟨_, _, _, ht, -⟩ := hr.inv.clear_eq false
  have h0' : (s.clearFreeBlockChannel false).1.uncounted = 0 := by
    rw [ht]
    exact h0
  unfold BufferedWriteHandler.syncRelease
  dsimp only
  split
  · exact hc.reply h0' _
  · exact hc.reply h0' _

/-- **`Sync` after its wait**: the zonal size check and the clear move no
byte; a failed flush of the pending writes is an upload error. -/
theorem Refines.syncEnd (hr : Refines cfg f s) (hw : s.caller = .syncWait) (writerOk flushOk : Bool) :
    Refines cfg f (s.syncEnd cfg writerOk flushOk) := by
  have h0 : s.uncounted = 0 := by simp [uncounted, hw]
  unfold BufferedWriteHandler.syncEnd
  split
  · split
    · rename_i heq
      obtain ⟨hu, huc⟩ := hr.ensureWriter heq
      exact hu.reply (by rw [(views_of_caller huc).1, h0]) _
    · rename_i u heq
      obtain ⟨hu, huc⟩ := hr.ensureWriter heq
      have h0' : u.uncounted = 0 := by rw [(views_of_caller huc).1, h0]
      split
      · exact hu.reply h0' _
      · split
        · dsimp only
          split
          · exact hu.reply h0' _
          · exact hu.syncRelease h0' _
        · exact hu.failed _ _
  · exact hr.syncRelease h0 none

/-- **`Finalize` after its wait**: it closes the channel, so no later
state is clean. -/
theorem Refines.finalizeEnd (hr : Refines cfg f s) (hw : s.caller = .finalizeWait)
    {writerOk finalizeOk : Bool} (h : s.finalizeEnd cfg writerOk finalizeOk = some t) :
    Refines cfg f t := by
  have h0 : s.uncounted = 0 := by simp [uncounted, hw]
  have hc : Refines cfg f { s with chClosed := true } :=
    Refines.unclean (hr.inv.congr rfl rfl rfl rfl rfl (Nat.le_refl _) hr.inv.offset hr.inv.finalizeWait)
      hr.cancelled fun hc => by cases hc.chClosed
  unfold BufferedWriteHandler.finalizeEnd at h
  split at h
  · cases h
  · split at h
    · rename_i heq
      cases h
      obtain ⟨hu, huc⟩ := hc.ensureWriter heq
      exact hu.reply (by rw [(views_of_caller huc).1]; exact h0) _
    · rename_i u heq
      obtain ⟨hu, huc⟩ := hc.ensureWriter heq
      have h0' : u.uncounted = 0 := by rw [(views_of_caller huc).1]; exact h0
      split at h
      · cases h
        exact hu.reply h0' _
      · split at h
        · dsimp only at h
          split at h
          · cases h
            exact hu.reply h0' _
          · cases h
            obtain ⟨_, _, _, ht, -⟩ := hu.inv.clear_eq true
            exact (hu.clear true).reply (by rw [ht]; exact h0') _
        · cases h
          exact hu.failed _ _

/-- **`Unlink`, up to its wait**: it cancels the writer, if any. -/
theorem Refines.unlink (hr : Refines cfg f s) (hidle : s.caller = .idle) : Refines cfg f s.unlink := by
  have h0 : s.uncounted = 0 := by simp [uncounted, hidle]
  refine hr.of_eq hr.inv.unlink (fun h => ?_) ?_ (fun _ _ _ => rfl) rfl ?_ id (fun h => ?_) rfl id
    (fun h => by cases h) (List.Subset.refl _)
  · simp only [BufferedWriteHandler.unlink, Bool.or_eq_true] at h
    rcases h with h | h
    · exact hr.cancelled h
    · exact h
  · change s.totalSize + ((0 : ℕ) : ℤ) = s.totalSize + s.uncounted
    rw [h0]
  · change s.queuedBytes ++ s.currentBytes ++ [] = s.queuedBytes ++ s.currentBytes ++ s.pendingBytes
    rw [pendingBytes_eq_nil h0]
  · simp only [BufferedWriteHandler.unlink, Bool.or_eq_false_iff] at h
    exact h.1

/-- **`Destroy`**: it closes the channel, so no later state is clean. -/
theorem Refines.destroy (hr : Refines cfg f s) (hidle : s.caller = .idle) (h : s.destroy = some t) :
    Refines cfg f t := by
  obtain ⟨u, hu, hinv, huc, huw, hucan, -⟩ := hr.inv.drain
  have hc : Refines cfg f { u with chClosed := true } :=
    Refines.unclean hinv (fun h => huw ▸ hr.cancelled (hucan ▸ h)) fun hc => by cases hc.chClosed
  have hd : s.destroy = some (((({ u with chClosed := true } : BufferedWriteHandler).clearFreeBlockChannel
      true).1).reply (.destroy (!({ u with chClosed := true }.clearFreeBlockChannel true).2))) := by
    unfold BufferedWriteHandler.destroy
    rw [hu]
    rfl
  rw [hd] at h
  cases h
  obtain ⟨_, _, _, ht, -⟩ := hc.inv.clear_eq true
  refine (hc.clear true).reply ?_ _
  rw [ht]
  show u.uncounted = 0
  rw [(views_of_caller huc).1]
  simp [uncounted, hidle]

/-! ## The uploader -/

theorem Refines.uploaderTake (hr : Refines cfg f s) {b : ℕ} {rest : List ℕ} (hu : s.uploading = none)
    (hch : s.uploadCh = b :: rest) : Refines cfg f { s with uploading := some b, uploadCh := rest } := by
  have hq : ({ s with uploading := some b, uploadCh := rest } : BufferedWriteHandler).queued =
      s.queued := by
    simp [queued, hu, hch]
  refine hr.of_eq (hr.inv.uploaderTake hu hch) hr.cancelled rfl (fun _ _ _ => rfl) rfl ?_
    (fun h => by rwa [hq] at h) id rfl id (fun h => .inl h) (List.Subset.refl _)
  unfold queuedBytes
  rw [hq]
  rfl

/-- **The uploader uploads its block**: the writer receives its bytes, or
a prefix of them when the copy fails, and nothing once an upload failed. -/
theorem Refines.uploaderFinish (hr : Refines cfg f s) {b : ℕ} {r : CopyResult}
    (hb : s.uploading = some b)
    (h : (do
      let t ← s.uploadBlock b r
      let t ← t.release b
      let t ← t.done
      some { t with uploading := none }) = some t) : Refines cfg f t := by
  have hinv := hr.inv.uploaderFinish hb h
  simp only [Option.bind_eq_bind, Option.bind_eq_some_iff, Option.some.injEq] at h
  obtain ⟨u, hu, v, hv, w, hw, rfl⟩ := h
  obtain ⟨-, rfl⟩ := release_eq_some hv
  obtain ⟨-, rfl⟩ := done_eq_some hw
  have hq : s.queued = b :: s.uploadCh := by simp [queued, hb]
  -- the block leaves the queue, and `wg` its count
  have hpos : 0 < s.wg := by
    have := hr.inv.wg
    rw [hq, List.length_cons] at this
    omega
  have hwq : ∀ t : BufferedWriteHandler, t.wg = s.wg - 1 → t.queued = s.uploadCh →
      t.wg = t.queued.length → s.wg = s.queued.length := fun t htw htq h => by
    rw [hq, List.length_cons]
    rw [htw, htq] at h
    omega
  have hqb : s.queuedBytes = (s.block b).buffer ++ s.bytesOf s.uploadCh := by
    unfold queuedBytes
    rw [hq, bytesOf_cons]
  unfold BufferedWriteHandler.uploadBlock at hu
  split at hu
  · -- an upload failed before: the block is skipped
    rename_i he
    cases hu
    refine ⟨hinv, hr.cancelled, fun hct => ?_⟩
    have ha := hr.agrees (hct.of_eq (hwq _ rfl (by simp [queued])) id rfl id (fun h => .inl h) (List.Subset.refl _))
    refine ⟨ha.extent, ha.size, fun hn => ?_, ha.sent⟩
    have hn' : s.uploadError = none := hn
    simp [hn'] at he
  · rename_i he
    have hn : s.uploadError = none := by simpa using he
    split at hu
    · cases hu
    · -- all of it
      rename_i wr hwr
      cases hu
      refine ⟨hinv, fun _ => rfl, fun hct => ?_⟩
      have ha := hr.agrees (hct.of_eq (hwq _ rfl (by simp [queued])) id rfl id (fun h => .inl h) (List.Subset.refl _))
      have hsent : wr.data ++ (s.block b).buffer ++ s.bytesOf s.uploadCh ++ s.currentBytes ++
          s.pendingBytes = f.content := by
        rw [← ha.lossless hn, hqb]
        simp [written, hwr]
      refine ⟨ha.extent, ha.size, fun _ => ?_, ?_⟩
      · rw [← hsent]
        rfl
      · rw [← hsent]
        show wr.data ++ (s.block b).buffer <+: _
        exact ⟨s.bytesOf s.uploadCh ++ s.currentBytes ++ s.pendingBytes, by simp⟩
    · -- a prefix, and the error
      rename_i wr n hwr
      cases hu
      refine ⟨hinv, fun _ => rfl, fun hct => ?_⟩
      have ha := hr.agrees (hct.of_eq (hwq _ rfl (by simp [queued])) id rfl (fun h => by cases h)
        (fun h => .inl h) (List.Subset.refl _))
      refine ⟨ha.extent, ha.size, (fun h => by cases h), ?_⟩
      rw [← ha.lossless hn, hqb]
      simp only [written, hwr, List.append_assoc]
      exact List.prefix_append_right_inj _ |>.2 ((List.take_prefix _ _).trans (List.prefix_append _ _))
    · -- canceled: only after `Unlink`, which left the handler not clean
      rename_i wr n hwr
      split at hu
      · rename_i hcan
        cases hu
        exact Refines.unclean hinv (fun _ => rfl) fun hc => by
          have := hc.cancelled
          simp_all
      · cases hu

/-! ## Every step -/

/-- The call an action makes of the file, if any. -/
def Action.op : Action → Option StreamOp
  | .write offset data => some (.write offset data)
  | .truncate size => some (.truncate size)
  | .flush _ => some .flush
  | _ => none

/-- The file after an action. -/
def fileStep (base : ℕ) (f : StreamFile) (a : Action) : StreamFile :=
  match a.op with
  | some op => f.apply base op
  | none => f

theorem Refines.init {globalPermits : ℕ} (h : new cfg globalPermits = some s) :
    Refines cfg (StreamFile.start (initialSize cfg)) s := by
  have hinv := Inv.init h
  unfold new at h
  obtain ⟨⟨p, permits⟩, -, rfl⟩ := Option.map_eq_some_iff.1 h
  refine ⟨hinv, fun h => (by cases h), fun _ => ⟨?_, ?_, fun _ => rfl, List.nil_prefix⟩⟩
  · simp [StreamFile.extent, StreamFile.start, uncounted]
  · simp only [StreamFile.extent, StreamFile.start, List.length_nil]
    omega

/-- **One step keeps the refinement**, with the file stepped by the
action's call. -/
theorem Refines.step (hr : Refines cfg f s) {a : Action} (h : s.step cfg a = some t) :
    Refines cfg (fileStep (initialSize cfg) f a) t := by
  cases a with
  | write offset data =>
    obtain ⟨hidle, rfl⟩ := step_write h
    exact hr.write hidle offset data
  | appendStep ok created =>
    obtain ⟨pending, dataWritten, calls, after, hcaller, happend⟩ := step_appendStep h
    exact hr.appendStep hcaller happend
  | truncate size =>
    obtain ⟨hidle, rfl⟩ := step_truncate h
    exact hr.truncate hidle size
  | sync ok =>
    obtain ⟨hidle, hsync⟩ := step_sync h
    exact hr.sync hidle hsync
  | syncEnd writerOk flushOk =>
    obtain ⟨⟨hwait, -⟩, rfl⟩ := step_syncEnd h
    exact hr.syncEnd hwait writerOk flushOk
  | flush ok =>
    obtain ⟨hidle, hflush⟩ := step_flush h
    exact hr.flush hidle hflush
  | finalizeEnd writerOk finalizeOk =>
    obtain ⟨⟨hwait, -⟩, hfinalize⟩ := step_finalizeEnd h
    exact hr.finalizeEnd hwait hfinalize
  | unlink =>
    obtain ⟨hidle, rfl⟩ := step_unlink h
    exact hr.unlink hidle
  | unlinkEnd =>
    obtain ⟨⟨hwait, -⟩, rfl⟩ := step_unlinkEnd h
    obtain ⟨_, _, _, ht, -⟩ := hr.inv.clear_eq false
    exact (hr.clear false).reply (by rw [ht]; simp [uncounted, hwait]) _
  | destroy =>
    obtain ⟨hidle, hdestroy⟩ := step_destroy h
    exact hr.destroy hidle hdestroy
  | uploaderTake =>
    obtain ⟨b, rest, hu, hch, -, rfl⟩ := step_uploaderTake h
    exact hr.uploaderTake hu hch
  | uploaderFinish r =>
    obtain ⟨b, hb, hfinish⟩ := step_uploaderFinish h
    exact hr.uploaderFinish hb hfinish

/-- **The refinement along runs**: after any run from a new handler, the
handler refines the file its calls wrote. -/
theorem Refines.of_run {globalPermits : ℕ} {s₀ : BufferedWriteHandler} (h₀ : new cfg globalPermits = some s₀)
    {as : List Action} (h : Run.run (BufferedWriteHandler.step cfg) s₀ as = some s) :
    Refines cfg (as.foldl (fileStep (initialSize cfg)) (StreamFile.start (initialSize cfg))) s :=
  Run.run_simulates (fileStep (initialSize cfg)) (fun _ _ _ _ hr hs => hr.step hs) as _ s₀ s
    (Refines.init h₀) h

/-- Steps that make no call leave the file as it was. -/
theorem foldl_fileStep_of_op (base : ℕ) :
    ∀ (as : List Action) (f : StreamFile), (∀ a ∈ as, a.op = none) → as.foldl (fileStep base) f = f
  | [], _, _ => rfl
  | a :: as, f, h => by
    have ha : fileStep base f a = f := by simp only [fileStep, h a List.mem_cons_self]
    rw [List.foldl_cons, ha]
    exact foldl_fileStep_of_op base as f fun a' h' => h a' (List.mem_cons_of_mem a h')

/-! ## Nothing lost is nothing lost before -/

/-- The files `⟨zeros k, -1⟩` are longer than their size, so only a write
at their end lengthens them. -/
theorem extent_fileStep_zeros (base k : ℕ) (a : Action) :
    (fileStep base ⟨List.replicate k 0, -1⟩ a).extent base = base + k ∨
      ∃ data, a = .write (base + k) data := by
  cases a with
  | write offset data =>
    by_cases ho : offset = base + k
    · exact .inr ⟨data, by rw [ho]⟩
    · left
      simp only [fileStep, Action.op, StreamFile.apply, StreamFile.write, StreamFile.extent,
        List.length_replicate]
      rw [if_neg ho, if_neg (by omega)]
      simp
  | truncate size =>
    left
    simp only [fileStep, Action.op, StreamFile.apply, StreamFile.truncate]
    split <;> simp [StreamFile.extent]
  | flush ok =>
    left
    simp [fileStep, Action.op, StreamFile.apply, StreamFile.flush, StreamFile.extent]
    omega
  | _ => exact .inl (by simp [fileStep, Action.op, StreamFile.extent])

/-- **A step to a clean handler comes from a clean one.** A handler that
is not clean refines every file, and so, after the step, would hold two
files of different lengths. -/
theorem Refines.clean_of_step (hr : Refines cfg f s) {a : Action} (h : s.step cfg a = some t)
    (hct : t.Clean) : s.Clean := by
  by_contra hns
  have hk : ∀ k : ℕ, t.totalSize + t.uncounted = initialSize cfg + k ∨
      ∃ d, a = .write (initialSize cfg + k) d := fun k =>
    (extent_fileStep_zeros _ k a).imp_left fun he =>
      (((Refines.unclean hr.inv hr.cancelled hns).step h).agrees hct |>.extent).symm.trans he
  -- of three such files, the handler's length is at most one's, and the
  -- action writes at the end of at most one
  rcases hk 0 with h0 | ⟨d0, ha0⟩
  · rcases hk 1 with h1 | ⟨d1, ha1⟩
    · push_cast at h0 h1; omega
    · rcases hk 2 with h2 | ⟨d2, ha2⟩
      · push_cast at h0 h2; omega
      · rw [ha1] at ha2; simp only [Action.write.injEq] at ha2; omega
  · rcases hk 1 with h1 | ⟨d1, ha1⟩
    · rcases hk 2 with h2 | ⟨d2, ha2⟩
      · push_cast at h1 h2; omega
      · rw [ha0] at ha2; simp only [Action.write.injEq] at ha2; omega
    · rw [ha0] at ha1; simp only [Action.write.injEq] at ha1; omega

/-- **Along runs**: a run that ends clean started clean. -/
theorem Refines.clean_of_run (hr : Refines cfg f s) {as : List Action}
    (h : Run.run (BufferedWriteHandler.step cfg) s as = some t) (hct : t.Clean) : s.Clean := by
  -- carry "not clean since `s`" along the run with the refinement
  have key := Run.run_simulates (fileStep (initialSize cfg))
    (R := fun f u => Refines cfg f u ∧ (¬ s.Clean → ¬ u.Clean))
    (fun _ _ _ _ hu hs => ⟨hu.1.step hs, fun hns hc => hu.2 hns (hu.1.clean_of_step hs hc)⟩)
    as f s t ⟨hr, id⟩ h
  by_contra hns
  exact key.2 hns hct

end BufferedWriteHandler

end BufferedWrite

end GcsFuse
