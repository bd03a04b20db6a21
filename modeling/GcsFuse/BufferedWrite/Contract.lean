import GcsFuse.BufferedWrite.Refinement
/-!
# What the buffered write handler promises

The handler's caller writes a file from the front, and the handler is
right when a `Flush` that succeeds has handed GCS the file's bytes. By the
refinement, a clean handler holds the file; here a successful `Flush`
shows that nothing was lost on the way (`Refines.finalize_ok`), and so
the writer has the file, all of it (`streamed_flush_delivers_file`).

The blocks the handler hands to the uploader are full, except the one
`Sync` hands over and the last one of `Flush` (`step_sends`). `Destroy`
deallocates every block except `current` and the one the uploader holds
(`Inv.destroy_mapped`): the first is never given back, and the second
goes to the free channel after the pool was cleared, with its permit
(`destroy_leaks_blocks`).
-/

namespace GcsFuse

namespace BufferedWrite

namespace BufferedWriteHandler

variable {cfg : Config} {s t u : BufferedWriteHandler} {f : StreamFile}

/-! ## A successful `Flush` -/

/-- A writer starts at the end of the object it appends to, or at zero. -/
theorem writerOffset_le : writerOffset cfg ≤ initialSize cfg := by
  unfold writerOffset initialSize
  cases cfg.object with
  | none => exact Nat.le_refl 0
  | some o =>
    dsimp only
    split <;> omega

/-- The handler `ensureWriter` leaves at the end of `Flush`: its writer
has what the handler's had, at `writerOffset`, and only a writer the
handler had may be canceled. -/
theorem ensureWriter_finalize (hr : Refines cfg f s) {ok : Bool}
    (h : ({ s with chClosed := true } : BufferedWriteHandler).ensureWriter cfg ok = (u, none))
    {w : GcsWriter} (hw : u.writer = some w) (hc : u.cancelled = false) :
    s.cancelled = false ∧ u.totalSize = s.totalSize ∧ w.data = s.written ∧
      w.offset = writerOffset cfg := by
  rcases ensureWriter_eq h with ⟨-, -, rfl⟩ | ⟨-, hsw, rfl⟩ | ⟨he, -, -⟩
  · exact ⟨hc, rfl, by simp [written, show s.writer = some w from hw], hr.inv.offset w hw⟩
  · -- a new writer: a handler without one was never canceled
    simp only [Option.some.injEq] at hw
    subst hw
    refine ⟨?_, rfl, by simp [written, show s.writer = none from hsw], rfl⟩
    cases hcs : s.cancelled
    · rfl
    · simpa [show s.writer = none from hsw] using hr.cancelled hcs
  · cases he

theorem ensureWriter_replies {ok : Bool} {e : Option WriteError} (h : s.ensureWriter cfg ok = (t, e)) :
    t.replies = s.replies := by
  rcases ensureWriter_eq h with ⟨-, -, rfl⟩ | ⟨-, -, rfl⟩ | ⟨-, -, rfl⟩ <;> rfl

/-- **A `Flush` that succeeds, after no call failed to get a block, finds
the handler clean**, and the writer then has the file: its bytes are the
file's, and the size `Finalize` returns is where the file ends. -/
theorem Refines.finalize_ok (hr : Refines cfg f s) (hw : s.caller = .finalizeWait) (hwg : s.wg = 0)
    {writerOk finalizeOk : Bool} (h : s.finalizeEnd cfg writerOk finalizeOk = some t) {n : ℕ}
    (hok : t.replies.getLast? = some (.flush (.ok n)))
    (hget : ∀ r ∈ t.replies, r.failedToGetBlock = false) :
    s.Clean ∧ t.written = f.content ∧ (n : ℤ) = f.extent (initialSize cfg) := by
  unfold BufferedWriteHandler.finalizeEnd at h
  split at h
  · cases h
  rename_i hch
  -- every branch but the last replies with an error
  split at h
  · cases h
    simp [BufferedWriteHandler.reply] at hok
  rename_i u heq
  split at h
  · cases h
    simp [BufferedWriteHandler.reply] at hok
  rename_i w hwu
  split at h
  swap
  · cases h
    simp [BufferedWriteHandler.reply] at hok
  rename_i hfin
  dsimp only at h
  split at h
  · cases h
    simp [BufferedWriteHandler.reply] at hok
  rename_i hsize
  cases h
  have hn : w.offset + w.data.length = n := by simpa [BufferedWriteHandler.reply] using hok
  obtain ⟨hcs, hT, hdata, hoff⟩ := ensureWriter_finalize hr heq hwu hfin.2
  -- the writer survives the clear
  have hu : Inv cfg u :=
    (hr.inv.congr rfl rfl rfl rfl rfl (Nat.le_refl _) hr.inv.offset hr.inv.finalizeWait :
      Inv cfg { s with chClosed := true }).ensureWriter heq
  obtain ⟨_, _, _, hclr, -⟩ := hu.clear_eq true
  have hwt : ((u.clearFreeBlockChannel true).1.reply (.flush (.ok (w.offset + w.data.length)))).written =
      w.data := by
    simp [written, BufferedWriteHandler.reply, hclr, hwu]
  -- with `wg` at zero nothing is queued, so nothing was lost
  have hq : s.queued = [] := List.eq_nil_of_length_eq_zero (by have := hr.inv.wg; omega)
  have hgot : ∀ r ∈ s.replies, r.failedToGetBlock = false := fun r hr => hget r (by
    simp only [BufferedWriteHandler.reply, hclr, List.mem_append]
    exact .inl (by rw [ensureWriter_replies heq]; exact hr))
  have hclean : s.Clean :=
    ⟨by rw [hwg, hq]; rfl, hcs, by simpa using hch, .inr (by simp [flushing, hw]), hgot⟩
  have ha := hr.agrees hclean
  have hext : f.extent (initialSize cfg) = s.totalSize := by
    rw [ha.extent, show s.uncounted = 0 by simp [uncounted, hw]]
    simp
  -- the writer has a prefix of the file, and as many bytes
  have hsz : (writerOffset cfg + s.written.length : ℤ) = s.totalSize := by
    rw [← hT, ← hoff, ← hdata]
    push_cast at hsize
    omega
  have hlen : s.written.length = f.content.length := by
    have hle := ha.sent.length_le
    have hwo : writerOffset cfg ≤ initialSize cfg := writerOffset_le
    simp only [StreamFile.extent] at hext
    omega
  refine ⟨hclean, ?_, ?_⟩
  · rw [hwt, hdata]
    exact ha.sent.eq_of_length hlen
  · omega

/-! ## What goes to the uploader -/

/-- A block a step puts at the end of the channel is full. -/
def SendsFull (cfg : Config) (s t : BufferedWriteHandler) : Prop :=
  ∀ b, t.uploadCh = s.uploadCh ++ [b] → (t.block b).size = cfg.blockSize

theorem sendsFull_of_length (h : t.uploadCh.length ≤ s.uploadCh.length) : SendsFull cfg s t :=
  fun b hb => absurd (congrArg List.length hb) (by simp only [List.length_append, List.length_singleton]; omega)

theorem sendsFull_of_uploadCh (h : t.uploadCh = s.uploadCh) : SendsFull cfg s t :=
  sendsFull_of_length (Nat.le_of_eq (congrArg List.length h))

theorem SendsFull.of_uploadCh (h : SendsFull cfg u t) (hu : u.uploadCh = s.uploadCh) :
    SendsFull cfg s t :=
  fun b hb => h b (by rw [hu]; exact hb)

/-! ### The functions that leave the channel alone -/

@[simp] theorem reply_uploadCh (r : Reply) : (s.reply r).uploadCh = s.uploadCh := rfl

theorem ensureWriter_uploadCh {ok : Bool} {e : Option WriteError} (h : s.ensureWriter cfg ok = (t, e)) :
    t.uploadCh = s.uploadCh := by
  rcases ensureWriter_eq h with ⟨-, -, rfl⟩ | ⟨-, -, rfl⟩ | ⟨-, -, rfl⟩ <;> rfl

theorem clearLoop_uploadCh : ∀ (l : List ℕ) (s : BufferedWriteHandler), (clearLoop l s).1.uploadCh = s.uploadCh
  | [], _ => rfl
  | b :: rest, s => by
    rw [clearLoop]
    split
    · exact clearLoop_uploadCh rest _
    · rfl

@[simp] theorem clearFreeBlockChannel_uploadCh (r : Bool) :
    (s.clearFreeBlockChannel r).1.uploadCh = s.uploadCh := by
  have h := clearLoop_uploadCh s.blockPool.freeBlocksCh s
  unfold clearFreeBlockChannel
  split
  · rename_i v hv
    rw [hv] at h
    split <;> exact h
  · rename_i v hv
    rw [hv] at h
    exact h

@[simp] theorem syncRelease_uploadCh (o : Option ℤ) : (s.syncRelease o).uploadCh = s.uploadCh := by
  unfold syncRelease
  dsimp only
  split <;> simp

@[simp] theorem addWritten_uploadCh (dataWritten : ℕ) : (s.addWritten dataWritten).uploadCh = s.uploadCh := by
  unfold addWritten
  dsimp only
  split <;> rfl

theorem write_uploadCh (offset : ℤ) (data : List UInt8) : (s.write offset data).uploadCh = s.uploadCh := by
  unfold BufferedWriteHandler.write
  split
  · rfl
  · dsimp only
    split
    · rfl
    · split <;> rfl

theorem truncate_uploadCh (size : ℤ) : (s.truncate size).uploadCh = s.uploadCh := by
  unfold BufferedWriteHandler.truncate
  split <;> rfl

theorem syncEnd_uploadCh (writerOk flushOk : Bool) :
    (s.syncEnd cfg writerOk flushOk).uploadCh = s.uploadCh := by
  unfold syncEnd
  split
  · split
    · rename_i heq
      simp [ensureWriter_uploadCh heq]
    · rename_i u heq
      have hu := ensureWriter_uploadCh heq
      split
      · simp [hu]
      · dsimp only
        split
        · split <;> simp [hu]
        · simp [hu]
  · simp

theorem finalizeEnd_uploadCh {writerOk finalizeOk : Bool} (h : s.finalizeEnd cfg writerOk finalizeOk = some t) :
    t.uploadCh = s.uploadCh := by
  unfold BufferedWriteHandler.finalizeEnd at h
  split at h
  · cases h
  split at h
  · rename_i heq
    cases h
    simp [ensureWriter_uploadCh heq]
  · rename_i u heq
    have hu := ensureWriter_uploadCh heq
    split at h
    · cases h
      simp [hu]
    · split at h
      · dsimp only at h
        split at h <;>
        · cases h
          simp [hu]
      · cases h
        simp [hu]

theorem currentBlock_uploadCh {created : Bool} {b : Option ℕ} (h : s.currentBlock created = some (t, b)) :
    t.uploadCh = s.uploadCh := by
  unfold currentBlock at h
  split at h
  · cases h
    rfl
  · cases b with
    | some b => rcases get_eq_some h with ⟨_, _, rfl⟩ | ⟨_, _, _, _, rfl⟩ <;> rfl
    | none =>
      obtain ⟨_, rfl⟩ := get_eq_failed h
      rfl

theorem drain_uploadCh : ∀ (l : List ℕ) (s t : BufferedWriteHandler), drain l s = some t →
    t.uploadCh = s.uploadCh
  | [], s, t, h => by
    cases h
    rfl
  | b :: rest, s, t, h => by
    simp only [drain, Option.bind_eq_bind, Option.bind_eq_some_iff] at h
    obtain ⟨v, hv, w, hw, h⟩ := h
    obtain ⟨-, rfl⟩ := release_eq_some hv
    obtain ⟨-, rfl⟩ := done_eq_some hw
    have := drain_uploadCh rest _ t h
    exact this

/-- `Destroy` empties the channel. -/
theorem destroy_uploadCh (h : s.destroy = some t) : t.uploadCh = [] := by
  unfold BufferedWriteHandler.destroy at h
  simp only [Option.bind_eq_bind, Option.bind_eq_some_iff, Option.map_eq_some_iff] at h
  obtain ⟨_, ⟨v, hv, rfl⟩, h⟩ := h
  cases h
  simp [drain_uploadCh _ _ v hv]

/-! ### The functions that send -/

/-- `Upload` leaves the heap alone and sends its block, or nothing. -/
theorem upload_sends {b : ℕ} {ok : Bool} {e : Option WriteError} (h : s.upload cfg b ok = some (t, e)) :
    t.blocks = s.blocks ∧ (t.uploadCh = s.uploadCh ∨ (e = none ∧ t.uploadCh = s.uploadCh ++ [b])) := by
  rcases upload_eq_some h with ⟨-, -, rfl⟩ | ⟨he, -, -, v, hv, -, rfl⟩
  · exact ⟨rfl, .inl rfl⟩
  · rcases hv with rfl | ⟨-, rfl⟩ <;> exact ⟨rfl, .inr ⟨he, rfl⟩⟩

/-- The rest of `Flush` sends the current block only to wait in
`Finalize`. -/
theorem flushCurrent_sends {ok : Bool} (h : s.flushCurrent cfg ok = some t) :
    t.uploadCh = s.uploadCh ∨ t.caller = .finalizeWait := by
  unfold flushCurrent at h
  split at h
  · cases h
    exact .inr rfl
  · obtain ⟨⟨u, e⟩, hu, rfl⟩ := Option.map_eq_some_iff.1 h
    rcases (upload_sends hu).2 with hch | ⟨rfl, -⟩
    · rcases e with _ | e
      · exact .inr rfl
      · exact .inl hch
    · exact .inr rfl

/-- A turn of `appendBuffer` sends its block only when it is full. -/
theorem uploadFull_sends {b : ℕ} {after : AfterAppend} {ok : Bool} (h : s.uploadFull cfg b after ok = some t) :
    SendsFull cfg s t := by
  unfold uploadFull at h
  split at h
  · rename_i hsize
    obtain ⟨⟨u, e⟩, hu, rfl⟩ := Option.map_eq_some_iff.1 h
    obtain ⟨hb, hch⟩ := upload_sends hu
    rcases hch with hch | ⟨rfl, hch⟩
    · -- nothing sent, whatever the branch
      apply sendsFull_of_uploadCh
      rcases e with _ | e
      · exact hch
      · cases after <;> exact hch
    · intro b' hb'
      rw [hch, List.append_cancel_left_eq, List.singleton_inj] at hb'
      subst hb'
      simp only [block, hb]
      exact hsize
  · cases h
    exact sendsFull_of_uploadCh rfl

/-- **A turn of `appendBuffer`**, or its end: a block it sends is full,
unless the caller then waits in `Finalize`. -/
theorem appendStep_sends {pending : List UInt8} {dataWritten : ℕ} {calls : List (List UInt8)}
    {after : AfterAppend} {ok created : Bool}
    (h : s.appendStep cfg pending dataWritten calls after ok created = some t) :
    SendsFull cfg s t ∨ t.caller = .finalizeWait := by
  unfold appendStep at h
  split at h
  · unfold appendEnd at h
    dsimp only at h
    split at h
    · cases h
      exact .inl (sendsFull_of_uploadCh (addWritten_uploadCh _))
    · cases h
      exact .inl (sendsFull_of_uploadCh (addWritten_uploadCh _))
    · rcases flushCurrent_sends h with hch | hc
      · exact .inl (sendsFull_of_uploadCh (hch.trans (addWritten_uploadCh _)))
      · exact .inr hc
  · obtain ⟨⟨v, b⟩, hcb, h⟩ := Option.bind_eq_some_iff.1 h
    have hv := currentBlock_uploadCh hcb
    cases b with
    | some b => exact .inl ((uploadFull_sends h).of_uploadCh hv)
    | none =>
      obtain rfl := Option.some.inj h
      exact .inl (sendsFull_of_uploadCh (by cases after <;> exact hv))

/-- **Every step**: a block it hands to the uploader is full, unless the
step is a `Sync` or the caller then waits in `Finalize` — the last block
of a `Flush`. -/
theorem step_sends {a : Action} (h : s.step cfg a = some t) :
    (∃ ok, a = .sync ok) ∨ t.caller = .finalizeWait ∨ SendsFull cfg s t := by
  cases a with
  | sync ok => exact .inl ⟨ok, rfl⟩
  | appendStep ok created =>
    obtain ⟨pending, dataWritten, calls, after, -, happend⟩ := step_appendStep h
    exact (appendStep_sends happend).elim (fun h => .inr (.inr h)) (fun h => .inr (.inl h))
  | flush ok =>
    have hflush := (step_flush h).2
    unfold BufferedWriteHandler.flush at hflush
    split at hflush
    · cases hflush
      exact .inr (.inr (sendsFull_of_uploadCh rfl))
    · split at hflush
      · cases hflush
        exact .inr (.inr (sendsFull_of_uploadCh rfl))
      · exact (flushCurrent_sends hflush).elim (fun h => .inr (.inr (sendsFull_of_uploadCh h)))
          (fun h => .inr (.inl h))
  | destroy =>
    have hempty := destroy_uploadCh (step_destroy h).2
    exact .inr (.inr (sendsFull_of_length (by rw [hempty]; exact Nat.zero_le _)))
  | uploaderTake =>
    obtain ⟨b, rest, -, hch, -, rfl⟩ := step_uploaderTake h
    exact .inr (.inr (sendsFull_of_length (by simp [hch])))
  | uploaderFinish r =>
    obtain ⟨b, -, hfinish⟩ := step_uploaderFinish h
    simp only [Option.bind_eq_bind, Option.bind_eq_some_iff] at hfinish
    obtain ⟨v, hv, w, hw, x, hx, hfinish⟩ := hfinish
    cases hfinish
    obtain ⟨_, _, rfl, -⟩ := uploadBlock_eq hv
    obtain ⟨-, rfl⟩ := release_eq_some hw
    obtain ⟨-, rfl⟩ := done_eq_some hx
    exact .inr (.inr (sendsFull_of_uploadCh rfl))
  -- the other steps leave the channel as it was
  | write offset data =>
    obtain ⟨-, rfl⟩ := step_write h
    exact .inr (.inr (sendsFull_of_uploadCh (write_uploadCh _ _)))
  | truncate size =>
    obtain ⟨-, rfl⟩ := step_truncate h
    exact .inr (.inr (sendsFull_of_uploadCh (truncate_uploadCh _)))
  | syncEnd writerOk flushOk =>
    obtain ⟨-, rfl⟩ := step_syncEnd h
    exact .inr (.inr (sendsFull_of_uploadCh (syncEnd_uploadCh _ _)))
  | finalizeEnd writerOk finalizeOk =>
    exact .inr (.inr (sendsFull_of_uploadCh (finalizeEnd_uploadCh (step_finalizeEnd h).2)))
  | unlink =>
    obtain ⟨-, rfl⟩ := step_unlink h
    exact .inr (.inr (sendsFull_of_uploadCh rfl))
  | unlinkEnd =>
    obtain ⟨-, rfl⟩ := step_unlinkEnd h
    exact .inr (.inr (sendsFull_of_uploadCh (by simp)))

/-! ## Streaming writes -/

/-- **`WriteFileInfo` is exact below `2 ^ 53`**: both sizes survive the
round trip through `float64`, or the truncated size is the `-1` below
every size. -/
theorem writeFileInfoTotalSize_of_lt (hT : 0 ≤ s.totalSize)
    (h : max s.totalSize s.truncatedSize < 2 ^ 53) :
    s.writeFileInfoTotalSize = max s.totalSize s.truncatedSize := by
  unfold writeFileInfoTotalSize
  rw [FloatRound.roundInt_of_lt (show s.totalSize.natAbs < 2 ^ 53 by omega)]
  by_cases htr : 0 ≤ s.truncatedSize
  · rw [FloatRound.roundInt_of_lt (show s.truncatedSize.natAbs < 2 ^ 53 by omega)]
  · have := FloatRound.roundInt_nonpos 53 (show s.truncatedSize < 0 by omega)
    omega

/-- **Streaming writes deliver the file.** From a new handler, after any
calls, a `Flush`, and any steps of the uploader, a `Finalize` that
succeeds, where no call failed to get a block, leaves the writer with the
content of the file those calls wrote, zeros up to its size included. With the object's first bytes, that
is the size `Finalize` returns and `max(totalSize, truncatedSize)` just
before the `Flush`, which `WriteFileInfo` reports below `2 ^ 53`. And at
every step, a block handed to the uploader is full, except the one of a
`Sync` and the last one of a `Flush`. -/
theorem streamed_flush_delivers_file {globalPermits : ℕ} {s₀ s₁ s t : BufferedWriteHandler}
    {calls rest : List Action} {ok writerOk finalizeOk : Bool} {n : ℕ}
    (h₀ : new cfg globalPermits = some s₀)
    (h₁ : Run.run (BufferedWriteHandler.step cfg) s₀ calls = some s₁)
    (h : Run.run (BufferedWriteHandler.step cfg) s₁ (.flush ok :: rest) = some s)
    (hrest : ∀ a ∈ rest, a.op = none)
    (hfin : s.step cfg (.finalizeEnd writerOk finalizeOk) = some t)
    (hok : t.replies.getLast? = some (.flush (.ok n)))
    (hget : ∀ r ∈ t.replies, r.failedToGetBlock = false) :
    t.written = ((calls.foldl (fileStep (initialSize cfg)) (StreamFile.start (initialSize cfg))).flush
      (initialSize cfg)).content ∧
    (n : ℤ) = initialSize cfg + t.written.length ∧
    (n : ℤ) = max s₁.totalSize s₁.truncatedSize ∧
    (n < 2 ^ 53 → s₁.writeFileInfoTotalSize = n) ∧
    ∀ u a v, u.step cfg a = some v → (∃ ok, a = .sync ok) ∨ v.caller = .finalizeWait ∨ SendsFull cfg u v := by
  set f₁ := calls.foldl (fileStep (initialSize cfg)) (StreamFile.start (initialSize cfg))
  have hr₁ : Refines cfg f₁ s₁ := Refines.of_run h₀ h₁
  have hrun := h
  rw [Run.run_cons] at hrun
  obtain ⟨s₂, h₂, hrun⟩ := Option.bind_eq_some_iff.1 hrun
  have hidle : s₁.caller = .idle := by
    simp only [BufferedWriteHandler.step] at h₂
    split at h₂
    · assumption
    · cases h₂
  -- the flush is the last call: the uploader's steps leave the file as it is
  have hr : Refines cfg (rest.foldl (fileStep (initialSize cfg)) (f₁.flush (initialSize cfg))) s :=
    Run.run_simulates (fileStep (initialSize cfg)) (fun _ _ _ _ hu hs => hu.step hs) rest _ s₂ s
      (hr₁.step h₂) hrun
  rw [foldl_fileStep_of_op _ rest _ hrest] at hr
  simp only [BufferedWriteHandler.step] at hfin
  split at hfin
  swap
  · cases hfin
  rename_i hg
  obtain ⟨hclean, hwr, hn⟩ := hr.finalize_ok hg.1 hg.2 hfin hok hget
  -- clean at the end, so clean just before the flush: the handler held `f₁`
  have ha₁ := hr₁.agrees (hr₁.clean_of_run h hclean)
  have hT : s₁.totalSize = f₁.extent (initialSize cfg) := by
    rw [ha₁.extent, show s₁.uncounted = 0 by simp [uncounted, hidle]]
    simp
  have hsound : f₁.Sound (initialSize cfg) := by
    unfold StreamFile.Sound
    rw [ha₁.size]
    omega
  have hmax : (n : ℤ) = max s₁.totalSize s₁.truncatedSize := by
    rw [hn, StreamFile.extent_flush hsound, ha₁.size, hT]
  refine ⟨hwr, by rw [hn, hwr]; rfl, hmax, fun hlt => ?_, fun u a v hs => step_sends hs⟩
  have h0 := StreamFile.extent_nonneg (initialSize cfg) f₁
  rw [writeFileInfoTotalSize_of_lt (by omega) (by omega), hmax]

/-- A file of three bytes in blocks of two: the first block goes to the
uploader full during the write, the second, of one byte, at the `Flush`. -/
theorem streamed_flush_delivers_three_bytes :
    ∃ s₀ s₁ s t, new ⟨2, 4, false, none⟩ 4 = some s₀ ∧
      Run.run (BufferedWriteHandler.step ⟨2, 4, false, none⟩) s₀
        [.write 0 [1, 2, 3], .appendStep true true, .appendStep true true, .appendStep true true] = some s₁ ∧
      Run.run (BufferedWriteHandler.step ⟨2, 4, false, none⟩) s₁
        [.flush true, .uploaderTake, .uploaderFinish .ok, .uploaderTake, .uploaderFinish .ok] = some s ∧
      s.step ⟨2, 4, false, none⟩ (.finalizeEnd true true) = some t ∧
      t.replies.getLast? = some (.flush (.ok 3)) ∧ (∀ r ∈ t.replies, r.failedToGetBlock = false) ∧
      t.written = [1, 2, 3] := by
  refine ⟨_, _, _, _, rfl, rfl, rfl, rfl, rfl, by decide, ?_⟩
  exact (@streamed_flush_delivers_file ⟨2, 4, false, none⟩ 4 _ _ _ _
    [.write 0 [1, 2, 3], .appendStep true true, .appendStep true true, .appendStep true true]
    [.uploaderTake, .uploaderFinish .ok, .uploaderTake, .uploaderFinish .ok] true true true 3
    rfl rfl rfl (by decide) rfl rfl (by decide)).1

-- A failed `Get` breaks it. Over an object of one byte that is not
-- appendable, in blocks of one, a write of two bytes sends the first and
-- then cannot map a block for the second: `totalSize` stays at one, the
-- byte sent is not counted, and `Flush` finds the one byte it expects.
example : ∃ s₀ s₁ s t, new ⟨1, 4, false, some ⟨1, true⟩⟩ 4 = some s₀ ∧
      Run.run (BufferedWriteHandler.step ⟨1, 4, false, some ⟨1, true⟩⟩) s₀
        [.write 1 [7, 8], .appendStep true true, .appendStep true false] = some s₁ ∧
      Run.run (BufferedWriteHandler.step ⟨1, 4, false, some ⟨1, true⟩⟩) s₁
        [.flush true, .uploaderTake, .uploaderFinish .ok] = some s ∧
      s.step ⟨1, 4, false, some ⟨1, true⟩⟩ (.finalizeEnd true true) = some t ∧
      s₁.replies = [.write (some .getBlock)] ∧ t.replies.getLast? = some (.flush (.ok 1)) ∧
      t.written = [7] ∧
      (([.write 1 [7, 8], .appendStep true true, .appendStep true false].foldl (fileStep 1)
        (StreamFile.start 1)).flush 1).content = [7, 8] := by
  refine ⟨_, _, _, _, rfl, rfl, rfl, rfl, rfl, rfl, ?_⟩
  decide

/-- **The writer of an appendable object gets only the new bytes.** On a
zonal bucket, a file opened on an unfinalized object of one byte appends
from that byte: a write of one byte and a `Flush` hand the writer one
byte, while `WriteFileInfo` said two. -/
theorem streamed_flush_appends_after_object :
    ∃ s₀ s₁ s t, new ⟨2, 4, true, some ⟨1, false⟩⟩ 4 = some s₀ ∧
      Run.run (BufferedWriteHandler.step ⟨2, 4, true, some ⟨1, false⟩⟩) s₀
        [.write 1 [7], .appendStep true true, .appendStep true true] = some s₁ ∧
      Run.run (BufferedWriteHandler.step ⟨2, 4, true, some ⟨1, false⟩⟩) s₁
        [.flush true, .uploaderTake, .uploaderFinish .ok] = some s ∧
      s.step ⟨2, 4, true, some ⟨1, false⟩⟩ (.finalizeEnd true true) = some t ∧
      t.replies.getLast? = some (.flush (.ok 2)) ∧ t.written = [7] ∧
      s₁.writeFileInfoTotalSize = 2 := by
  refine ⟨_, _, _, _, rfl, rfl, rfl, rfl, rfl, rfl, ?_⟩
  decide

/-! ## `Destroy` -/

/-- **What `Destroy` deallocates**: after it, the blocks still mapped are
exactly `current` and the block the uploader holds. -/
theorem Inv.destroy_mapped (hs : Inv cfg s) (h : s.destroy = some t) (b : ℕ) :
    (t.block b).mapped = true ↔ b ∈ s.current.toList ++ s.uploading.toList := by
  obtain ⟨u, hu, hinv, -, -, -, hcur, hup, hch⟩ := hs.drain
  have ht : t = (({ u with chClosed := true } : BufferedWriteHandler).clearFreeBlockChannel true).1.reply
      (.destroy (!(({ u with chClosed := true } : BufferedWriteHandler).clearFreeBlockChannel true).2)) := by
    unfold BufferedWriteHandler.destroy at h
    rw [hu] at h
    exact (Option.some.inj h).symm
  have hti : Inv cfg t := ht ▸ (hinv.clear true).reply _
  -- the channel and the free channel are empty: what is left is `current` and the uploader's
  have hpl : t.places = s.current.toList ++ s.uploading.toList := by
    have hfree : t.blockPool.freeBlocksCh = [] := by
      rw [ht]
      exact hinv.clear_free true
    obtain ⟨_, _, _, hclr, -⟩ := hinv.clear_eq true
    rw [places_eq, hfree, List.append_nil, ht, hclr]
    simp [BufferedWriteHandler.reply, queued, hcur, hup, hch]
  constructor
  · intro hm
    rw [← hpl]
    exact hti.cover b hm
  · intro hb
    exact (hti.placed b (by rw [hpl]; exact hb)).2

/-- **`Destroy` leaks blocks and a permit.** In blocks of two bytes, with
four permits: a write of three bytes fills block 0, which the uploader
takes, and leaves the last byte in block 1; then `Destroy`, and the
uploader finishes. Nothing is left to upload, yet blocks 0 and 1 are
still allocated and one of the four permits never comes back. -/
theorem destroy_leaks_blocks :
    ∃ s₀ s, new ⟨2, 4, false, none⟩ 4 = some s₀ ∧
      Run.run (BufferedWriteHandler.step ⟨2, 4, false, none⟩) s₀
        [.write 0 [1, 2, 3], .appendStep true true, .uploaderTake, .appendStep true true, .appendStep true true,
          .destroy, .uploaderFinish .ok] = some s ∧
      s.uploading = none ∧ s.uploadCh = [] ∧ s.wg = 0 ∧ s.current = some 1 ∧
      (s.block 0).mapped = true ∧ (s.block 1).mapped = true ∧ s.globalPermits = 3 := by
  refine ⟨_, _, rfl, rfl, ?_⟩
  decide

/-- **A failed `Upload` leaves `wg` counting a block nobody uploads**, and
the next wait never ends. A write of a full block whose writer cannot be
created returns the error with `wg` at `1` and nothing in the channel.
`Sync` then sends the block again with a writer; once the uploader has
uploaded it, `wg` is back at `1` with nothing queued, and the caller waits
in `AwaitBlocksUpload` for a `wg` of `0`: no step of the caller or of the
uploader can happen any more. -/
theorem failed_upload_blocks_sync_forever :
    ∃ s₀ s₁ s, new ⟨2, 4, false, none⟩ 4 = some s₀ ∧
      Run.run (BufferedWriteHandler.step ⟨2, 4, false, none⟩) s₀ [.write 0 [1, 2], .appendStep false true] = some s₁ ∧
      s₁.replies = [.write (some .ensureWriter)] ∧ s₁.wg = 1 ∧ s₁.queued = [] ∧
      Run.run (BufferedWriteHandler.step ⟨2, 4, false, none⟩) s₁
        [.sync true, .uploaderTake, .uploaderFinish .ok] = some s ∧
      s.caller = .syncWait ∧ s.wg = 1 ∧ s.queued = [] ∧
      ∀ a, s.step ⟨2, 4, false, none⟩ a = none := by
  refine ⟨_, _, _, rfl, rfl, rfl, rfl, rfl, rfl, rfl, rfl, rfl, fun a => ?_⟩
  cases a <;> rfl

end BufferedWriteHandler

end BufferedWrite

end GcsFuse
