import GcsFuse.Block.Pool
import GcsFuse.Common.FloatRound
/-!
# The buffered write handler — the model

`internal/bufferedwrites`: the `bufferedWriteHandlerImpl` that streams the
writes of one file to GCS, its `UploadHandler`, the uploader goroutine,
and the `GenBlockPool` of memory blocks they share. A write is copied into
`current`; a block that fills up is handed to the upload handler, which
queues it in `uploadCh`; the uploader goroutine takes blocks from the
channel one at a time, copies each into the GCS chunk writer and releases
it to the pool. A truncation to a larger size is only remembered
(`truncatedSize`); the zeros up to it are written when a write lands
there, or at `Flush`.

The file system holds the inode lock around every call, so the calls run
one after another on the caller's thread, against the uploader. A call
that waits is split where it waits: `appendBuffer` spins in `Get` until
the uploader releases a block, so each turn of its loop is a step
(`appendStep`) and the calls still to make are in `caller`; `Sync`,
`Flush` and `Unlink` wait in `wg.Wait` for the uploader, so each is a step
up to the wait and one after it. `Destroy` never waits. What GCS answers
(creating the writer, copying a block, flushing, finalizing), and whether
the `mmap` of a new block succeeds, is the action's argument.

Blocks live on a heap and the pool, the channel and the handler name
them by index. A panic of the Go code is `none`, and so is a step that
cannot run yet (a send into a full channel). The free permits of the
semaphore shared by all files are `globalPermits`.
-/

namespace GcsFuse

namespace BufferedWrite

open Block

/-- A `memoryBlock`: the bytes written into it, and whether it is still
mapped (`Deallocate` unmaps it and leaves its buffer `nil`). -/
structure MemoryBlock where
  buffer : List UInt8
  mapped : Bool
  deriving DecidableEq, Repr

namespace MemoryBlock

/-- `createBlock`: a fresh mapping, with no byte in it. -/
def create : MemoryBlock := ⟨[], true⟩

/-- `Reuse`: the bytes go, the mapping stays. -/
def reuse (b : MemoryBlock) : MemoryBlock := { b with buffer := [] }

/-- `Size`. -/
def size (b : MemoryBlock) : ℕ := b.buffer.length

end MemoryBlock

/-- The object a file was opened on: `Size`, and whether it is finalized. -/
structure ObjectInfo where
  size : ℕ
  finalized : Bool
  deriving DecidableEq, Repr

/-- What a `CreateBWHandlerRequest` fixes: `BlockSize`,
`MaxBlocksPerFile`, whether the bucket is zonal, and `Object`. -/
structure Config where
  blockSize : ℕ
  maxBlocksPerFile : ℕ
  zonal : Bool
  object : Option ObjectInfo
  deriving DecidableEq, Repr

/-- The errors the uploader stores in `uploadError`. -/
inductive UploadError
  /-- `io.Copy` into the writer failed. -/
  | copy
  /-- `bucket.FlushPendingWrites` failed. -/
  | flushPendingWrites
  /-- `bucket.FinalizeUpload` failed. -/
  | finalizeUpload
  deriving DecidableEq, Repr

/-- The errors a call returns. -/
inductive WriteError
  /-- `ErrOutOfOrderWrite`. -/
  | outOfOrder
  /-- What `UploadError()` returned. -/
  | upload (e : UploadError)
  /-- "uh.ensureWriter() failed". -/
  | ensureWriter
  /-- "could not upload entire data, expected size %d, got %d". -/
  | incompleteUpload (expected got : ℤ)
  /-- "BufferedWriteHandler.Flush(): %w" around a failed `FinalizeUpload`. -/
  | finalize
  /-- "failed to get new block: %w" around the "mmap error" of
  `createBlock`. -/
  | getBlock
  deriving DecidableEq, Repr

/-- A GCS chunk writer: the offset it appends at (the size of the
unfinalized object of a zonal bucket, else `0` for a new object) and the
bytes it received. -/
structure GcsWriter where
  offset : ℕ
  data : List UInt8
  deriving DecidableEq, Repr

/-- What `io.Copy` of one block into the writer did. -/
inductive CopyResult
  /-- It copied the whole block. -/
  | ok
  /-- It failed after `n` bytes; the error is stored. -/
  | failed (n : ℕ)
  /-- The context was canceled after `n` bytes; the error is dropped. -/
  | canceled (n : ℕ)
  deriving DecidableEq, Repr

/-- What the caller's thread does after the calls of `appendBuffer` it
still has to make. -/
inductive AfterAppend
  /-- `Write` returns. -/
  | write
  /-- `Flush` goes on with the current block and `Finalize`. -/
  | flush
  deriving DecidableEq, Repr

/-- Where the caller's thread is. -/
inductive Caller
  | idle
  /-- In the loop of `appendBuffer(data)`: `pending` of `data` is left to
  copy and `dataWritten` bytes are copied; `calls` are the calls of
  `appendBuffer` that follow, then `after`. -/
  | appending (pending : List UInt8) (dataWritten : ℕ) (calls : List (List UInt8))
      (after : AfterAppend)
  /-- `Sync` in `AwaitBlocksUpload`. -/
  | syncWait
  /-- `Flush` in the `wg.Wait()` of `Finalize`. -/
  | finalizeWait
  /-- `Unlink` in the `wg.Wait()` of `CancelUpload`. -/
  | unlinkWait
  deriving DecidableEq, Repr

/-- What a call returned. -/
inductive Reply
  | write (err : Option WriteError)
  | truncate (err : Option WriteError)
  /-- `Sync`: the size of the unfinalized object, for a zonal bucket. -/
  | sync (r : Except WriteError (Option ℤ))
  /-- `Flush`: the size of the finalized object. -/
  | flush (r : Except WriteError ℕ)
  | unlink
  /-- `Destroy`: whether `ClearFreeBlockChannel` met a block it could not
  deallocate. -/
  | destroy (munmapError : Bool)
  deriving DecidableEq, Repr

/-- The reply of a call that the error of `Get` ended. -/
def Reply.failedToGetBlock : Reply → Bool
  | .write (some .getBlock) => true
  | .flush (.error .getBlock) => true
  | _ => false

/-- The handler, its upload handler, its block pool and the uploader. -/
structure BufferedWriteHandler where
  current : Option ℕ
  totalSize : ℤ
  /-- `-1` when no truncation is pending. -/
  truncatedSize : ℤ
  blockPool : GenBlockPool
  blocks : List MemoryBlock
  globalPermits : ℕ
  uploadCh : List ℕ
  chClosed : Bool
  wg : ℕ
  uploadError : Option UploadError
  writer : Option GcsWriter
  /-- The writer's context was canceled by `CancelUpload`. -/
  cancelled : Bool
  /-- `startUploader.Do` ran. -/
  uploaderStarted : Bool
  /-- The block the uploader took from the channel and is uploading. -/
  uploading : Option ℕ
  caller : Caller
  replies : List Reply
  deriving DecidableEq, Repr

/-- The `1024 * 1024` bytes of zeros `writeDataForTruncatedSize` appends at
a time. -/
def chunkSize : ℕ := 1024 * 1024

/-- The loop of `writeDataForTruncatedSize`: the calls of `appendBuffer`
that write `diff` zeros, a chunk at a time. `fuel` bounds the turns; one
per byte is enough. -/
def zeroChunks : ℕ → ℕ → List (List UInt8)
  | 0, _ => []
  | fuel + 1, diff =>
    if diff = 0 then [] else List.replicate (min chunkSize diff) 0 :: zeroChunks fuel (diff - min chunkSize diff)

variable (cfg : Config)

/-- The size `NewBWHandler` starts from: the object's, if any. -/
def initialSize : ℕ := match cfg.object with
  | some o => o.size
  | none => 0

/-- `createObjectWriter`: an appendable writer at the end of an
unfinalized object of a zonal bucket, else a writer of a new object. -/
def writerOffset : ℕ := match cfg.object with
  | some o => if cfg.zonal ∧ o.finalized = false then o.size else 0
  | none => 0

/-- `NewBWHandler`, with the free permits of the shared semaphore: a pool
with one reserved block, nothing written. `none` is the pool's error. -/
def new (globalPermits : ℕ) : Option BufferedWriteHandler :=
  (GenBlockPool.new cfg.blockSize cfg.maxBlocksPerFile 1 globalPermits).map fun (p, permits) =>
    { current := none, totalSize := initialSize cfg, truncatedSize := -1, blockPool := p,
      blocks := [], globalPermits := permits, uploadCh := [], chClosed := false, wg := 0,
      uploadError := none, writer := none, cancelled := false, uploaderStarted := false,
      uploading := none, caller := .idle, replies := [] }

namespace BufferedWriteHandler

variable (s : BufferedWriteHandler)

/-- Block `b` of the heap; outside it, an empty block no longer mapped. -/
def block (b : ℕ) : MemoryBlock := s.blocks.getD b ⟨[], false⟩

/-- The bytes of `current`. -/
def currentBytes : List UInt8 := match s.current with
  | some b => (s.block b).buffer
  | none => []

/-- A call returns `r`. -/
def reply (r : Reply) : BufferedWriteHandler :=
  { s with replies := s.replies ++ [r], caller := .idle }

/-- The calls of `appendBuffer` of `writeDataForTruncatedSize`. -/
def truncationChunks : List (List UInt8) :=
  if s.totalSize ≥ s.truncatedSize then []
  else zeroChunks (s.truncatedSize - s.totalSize).toNat (s.truncatedSize - s.totalSize).toNat

/-- `WriteFileInfo().TotalSize`: `int64(math.Max(float64(totalSize),
float64(truncatedSize)))`, each size rounded to the 53-bit significand of
a `float64`. -/
def writeFileInfoTotalSize : ℤ :=
  max (FloatRound.roundInt 53 s.totalSize) (FloatRound.roundInt 53 s.truncatedSize)

/-- `Get`, once it returns, with whether `createBlockFunc` maps a block
when it is called: the head of the free channel, reset by `Reuse`, or a
new block at the end of the heap. A failed creation returns its error, the
block `none`, with the heap and `totalBlocks` as they were and the permit
`canAllocateBlock` took not given back. `none` while it spins, with no
free block and none it may create. -/
def get (created : Bool) : Option (BufferedWriteHandler × Option ℕ) :=
  match s.blockPool.freeBlocksCh with
  | b :: rest =>
    some ({ s with
      blockPool := { s.blockPool with freeBlocksCh := rest }
      blocks := s.blocks.set b (s.block b).reuse }, some b)
  | [] =>
    (s.blockPool.canAllocateBlock s.globalPermits).map fun permits =>
      if created then
        ({ s with
          blockPool := { s.blockPool with totalBlocks := s.blockPool.totalBlocks + 1 }
          blocks := s.blocks ++ [.create]
          globalPermits := permits }, some s.blocks.length)
      else ({ s with globalPermits := permits }, none)

/-- `Release`: into the free channel; a full channel panics. -/
def release (b : ℕ) : Option BufferedWriteHandler :=
  (s.blockPool.release b).map fun p => { s with blockPool := p }

/-- `wg.Done()`; below zero it panics. -/
def done : Option BufferedWriteHandler :=
  if s.wg = 0 then none else some { s with wg := s.wg - 1 }

/-- The loop of `ClearFreeBlockChannel`: each free block is taken from
the channel and deallocated, giving back its permit unless it is one of
the reserved. A block that is not mapped any more fails `Deallocate` and
ends the loop with the error: `false`. -/
def clearLoop : List ℕ → BufferedWriteHandler → BufferedWriteHandler × Bool
  | [], s => (s, true)
  | b :: rest, s =>
    if (s.block b).mapped then
      clearLoop rest { s with
        blockPool := { s.blockPool with
          freeBlocksCh := rest, totalBlocks := s.blockPool.totalBlocks - 1 }
        blocks := s.blocks.set b ⟨[], false⟩
        globalPermits := if s.blockPool.reservedBlocks < s.blockPool.totalBlocks
          then s.globalPermits + 1 else s.globalPermits }
    else ({ s with blockPool := { s.blockPool with freeBlocksCh := rest } }, false)

/-- `ClearFreeBlockChannel(releaseReservedBlocks)`, and whether it
succeeded. -/
def clearFreeBlockChannel (releaseReservedBlocks : Bool) : BufferedWriteHandler × Bool :=
  match clearLoop s.blockPool.freeBlocksCh s with
  | (t, true) =>
    (if releaseReservedBlocks then
      { t with globalPermits := t.globalPermits + t.blockPool.reservedBlocks } else t, true)
  | (t, false) => (t, false)

/-- `ensureWriter`, with whether creating the writer succeeds: the
writer, or its error. -/
def ensureWriter (ok : Bool) : BufferedWriteHandler × Option WriteError :=
  match s.writer with
  | some _ => (s, none)
  | none =>
    if ok then ({ s with writer := some ⟨writerOffset cfg, []⟩, cancelled := false }, none)
    else (s, some .ensureWriter)

/-- `Upload(block)`: `wg.Add(1)`, the writer, the uploader, then the
block into the channel. A send on a closed channel panics, and one on a
full channel waits: `none`. -/
def upload (b : ℕ) (ok : Bool) : Option (BufferedWriteHandler × Option WriteError) :=
  match ({ s with wg := s.wg + 1 } : BufferedWriteHandler).ensureWriter cfg ok with
  | (t, some e) => some (t, some e)
  | (t, none) =>
    if t.chClosed ∨ cfg.maxBlocksPerFile ≤ t.uploadCh.length then none
    else some ({ t with uploaderStarted := true, uploadCh := t.uploadCh ++ [b] }, none)

/-- `Write(data, offset)`, up to its calls of `appendBuffer`. -/
def write (offset : ℤ) (data : List UInt8) : BufferedWriteHandler :=
  match s.uploadError with
  | some e => s.reply (.write (some (.upload e)))
  | none =>
    -- a write past the end is out of order, unless it lands on a pending truncation
    if offset ≠ s.totalSize ∧ (offset ≠ s.truncatedSize ∨ s.totalSize ≥ s.truncatedSize) then
      s.reply (.write (some .outOfOrder))
    else
      let calls := (if offset = s.truncatedSize then s.truncationChunks else []) ++ [data]
      match calls with
      | c :: rest => { s with caller := .appending c 0 rest .write }
      | [] => s.reply (.write none)

/-- The rest of `Flush` after `writeDataForTruncatedSize`: the current
block goes to the upload handler, and `Finalize` waits. -/
def flushCurrent (ok : Bool) : Option BufferedWriteHandler :=
  match s.current with
  | none => some { s with caller := .finalizeWait }
  | some b =>
    (s.upload cfg b ok).map fun
      | (t, some e) => { t with current := some b }.reply (.flush (.error e))
      | (t, none) => { t with current := none, caller := .finalizeWait }

/-- The sizes after a call of `appendBuffer` wrote `dataWritten` bytes:
the size grows, and a truncation it reached is done. -/
def addWritten (dataWritten : ℕ) : BufferedWriteHandler :=
  let t := { s with totalSize := s.totalSize + dataWritten }
  if t.truncatedSize ≠ -1 ∧ t.totalSize ≥ t.truncatedSize then { t with truncatedSize := -1 } else t

/-- The end of a call of `appendBuffer`: then the next call, or the rest
of `Write` or `Flush`. -/
def appendEnd (dataWritten : ℕ) (calls : List (List UInt8)) (after : AfterAppend) (ok : Bool) :
    Option BufferedWriteHandler :=
  let t := s.addWritten dataWritten
  match calls, after with
  | c :: rest, _ => some { t with caller := .appending c 0 rest after }
  | [], .write => some (t.reply (.write none))
  | [], .flush => t.flushCurrent cfg ok

/-- The block a turn of the loop copies into: `current`, or what `Get`
returns. -/
def currentBlock (created : Bool) : Option (BufferedWriteHandler × Option ℕ) :=
  match s.current with
  | some b => some (s, some b)
  | none => s.get created

/-- The copy of a turn: what fits of `pending` goes into block `b`, which
is `current` from now on. -/
def copyInto (b : ℕ) (pending : List UInt8) (dataWritten : ℕ) (calls : List (List UInt8))
    (after : AfterAppend) : BufferedWriteHandler :=
  let n := min (cfg.blockSize - (s.block b).size) pending.length
  { s with
    current := some b
    blocks := s.blocks.set b { s.block b with buffer := (s.block b).buffer ++ pending.take n }
    caller := .appending (pending.drop n) (dataWritten + n) calls after }

/-- `appendBuffer` returns the error `e` from the middle of its loop:
`Write` returns it, and so does `Flush`, from `writeDataForTruncatedSize`.
What the call copied stays where it is, and `totalSize` never counts it. -/
def appendFailed (after : AfterAppend) (e : WriteError) : BufferedWriteHandler :=
  match after with
  | .write => s.reply (.write (some e))
  | .flush => s.reply (.flush (.error e))

/-- The end of a turn: a full `current` goes to the upload handler; its
error ends the call. -/
def uploadFull (b : ℕ) (after : AfterAppend) (ok : Bool) : Option BufferedWriteHandler :=
  if (s.block b).size = cfg.blockSize then
    (s.upload cfg b ok).map fun
      | (u, some e) => u.appendFailed after e
      | (u, none) => { u with current := none }
  else some s

/-- One turn of the loop of `appendBuffer`, or its end; the error of
`Get` ends the call. -/
def appendStep (pending : List UInt8) (dataWritten : ℕ) (calls : List (List UInt8))
    (after : AfterAppend) (ok created : Bool) : Option BufferedWriteHandler :=
  match pending with
  | [] => s.appendEnd cfg dataWritten calls after ok
  | _ :: _ => (s.currentBlock created).bind fun
    | (t, some b) => (t.copyInto cfg b pending dataWritten calls after).uploadFull cfg b after ok
    | (t, none) => some (t.appendFailed after .getBlock)

/-- `Sync`, up to `AwaitBlocksUpload`: a non-empty current block goes to
the upload handler. -/
def sync (ok : Bool) : Option BufferedWriteHandler :=
  match s.current with
  | some b =>
    if (s.block b).size ≠ 0 then
      (s.upload cfg b ok).map fun
        | (t, some e) => t.reply (.sync (.error e))
        | (t, none) => { t with current := none, caller := .syncWait }
    else some { s with caller := .syncWait }
  | none => some { s with caller := .syncWait }

/-- The end of `Sync`: the free blocks are cleared, and the error of an
upload fails the call. The error of a failed clear is only logged. -/
def syncRelease (o : Option ℤ) : BufferedWriteHandler :=
  let t := (s.clearFreeBlockChannel false).1
  match t.uploadError with
  | some e => t.reply (.sync (.error (.upload e)))
  | none => t.reply (.sync (.ok o))

/-- `Sync` after the wait: on a zonal bucket the pending writes are
flushed and the object's size checked; then the free blocks are cleared. -/
def syncEnd (writerOk flushOk : Bool) : BufferedWriteHandler :=
  if cfg.zonal then
    match s.ensureWriter cfg writerOk with
    | (t, some e) => t.reply (.sync (.error e))
    | (t, none) =>
      match t.writer with
      | none => t.reply (.sync (.error .ensureWriter))
      | some w =>
        if flushOk ∧ t.cancelled = false then
          let size : ℤ := w.offset + w.data.length
          if size ≠ t.totalSize then t.reply (.sync (.error (.incompleteUpload t.totalSize size)))
          else t.syncRelease (some size)
        else
          { t with uploadError := some .flushPendingWrites }.reply
            (.sync (.error (.upload .flushPendingWrites)))
  else s.syncRelease none

/-- `Flush`, up to the wait of `Finalize`: zeros up to a pending
truncation, then the current block. -/
def flush (ok : Bool) : Option BufferedWriteHandler :=
  match s.uploadError with
  | some e => some (s.reply (.flush (.error (.upload e))))
  | none =>
    match s.truncationChunks with
    | c :: rest => some { s with caller := .appending c 0 rest .flush }
    | [] => s.flushCurrent cfg ok

/-- `Finalize` after its wait, and the rest of `Flush`: the channel is
closed, the upload finalized, its size checked, and the pool cleared. -/
def finalizeEnd (writerOk finalizeOk : Bool) : Option BufferedWriteHandler :=
  -- closing a closed channel panics
  if s.chClosed then none
  else
    match ({ s with chClosed := true } : BufferedWriteHandler).ensureWriter cfg writerOk with
    | (t, some e) => some (t.reply (.flush (.error e)))
    | (t, none) =>
      match t.writer with
      | none => some (t.reply (.flush (.error .ensureWriter)))
      | some w =>
        if finalizeOk ∧ t.cancelled = false then
          let size := w.offset + w.data.length
          if (size : ℤ) ≠ t.totalSize then
            some (t.reply (.flush (.error (.incompleteUpload t.totalSize size))))
          else some ((t.clearFreeBlockChannel true).1.reply (.flush (.ok size)))
        else some ({ t with uploadError := some .finalizeUpload }.reply (.flush (.error .finalize)))

/-- `Truncate(size)`: only a size below the written one is refused. -/
def truncate (size : ℤ) : BufferedWriteHandler :=
  if size < s.totalSize then s.reply (.truncate (some .outOfOrder))
  else { s with truncatedSize := size }.reply (.truncate none)

/-- `Unlink`, up to the wait of `CancelUpload`: the writer's context is
canceled. -/
def unlink : BufferedWriteHandler :=
  { s with cancelled := s.cancelled || s.writer.isSome, caller := .unlinkWait }

/-- The loop of `UploadHandler.Destroy`: each block still in the channel
goes back to the pool, and its `wg.Done()`. -/
def drain : List ℕ → BufferedWriteHandler → Option BufferedWriteHandler
  | [], s => some s
  | b :: rest, s => do
    let t ← s.release b
    let t ← t.done
    drain rest t

/-- `Destroy`: what the channel still holds goes back to the pool and the
channel is closed, unless it is closed already; then the free blocks are
cleared with the reserved permits. -/
def destroy : Option BufferedWriteHandler := do
  let t ← (drain s.uploadCh { s with uploadCh := [] }).map fun t => { t with chClosed := true }
  let (t, ok) := t.clearFreeBlockChannel true
  some (t.reply (.destroy (!ok)))

/-- `uploadBlock`: nothing once an upload failed; else the block's bytes
go to the writer, all of them or as many as were copied before the
error. -/
def uploadBlock (b : ℕ) (r : CopyResult) : Option BufferedWriteHandler :=
  if s.uploadError.isSome then some s
  else
    match s.writer, r with
    | none, _ => none
    | some w, .ok => some { s with writer := some { w with data := w.data ++ (s.block b).buffer } }
    | some w, .failed n =>
      some { s with
        writer := some { w with data := w.data ++ (s.block b).buffer.take n }
        uploadError := some .copy }
    | some w, .canceled n =>
      if s.cancelled then
        some { s with writer := some { w with data := w.data ++ (s.block b).buffer.take n } }
      else none

/-- The actions: the calls on the caller's thread and the steps that
finish them, and the uploader's. -/
inductive Action
  | write (offset : ℤ) (data : List UInt8)
  /-- A turn of `appendBuffer`'s loop, with whether a writer it creates is
  created and whether a block it creates is mapped. -/
  | appendStep (writerOk created : Bool)
  | truncate (size : ℤ)
  | sync (writerOk : Bool)
  | syncEnd (writerOk flushOk : Bool)
  | flush (writerOk : Bool)
  | finalizeEnd (writerOk finalizeOk : Bool)
  | unlink
  | unlinkEnd
  | destroy
  /-- The uploader takes the next block from the channel. -/
  | uploaderTake
  /-- The uploader uploads its block and releases it. -/
  | uploaderFinish (r : CopyResult)
  deriving DecidableEq, Repr

/-- One step. A call starts on an idle caller, a step after a wait needs
`wg` at zero, and the uploader needs a block. -/
def step : Action → Option BufferedWriteHandler
  | .write offset data => if s.caller = .idle then some (s.write offset data) else none
  | .appendStep ok created =>
    match s.caller with
    | .appending pending dataWritten calls after =>
      s.appendStep cfg pending dataWritten calls after ok created
    | _ => none
  | .truncate size => if s.caller = .idle then some (s.truncate size) else none
  | .sync ok => if s.caller = .idle then s.sync cfg ok else none
  | .syncEnd writerOk flushOk =>
    if s.caller = .syncWait ∧ s.wg = 0 then some (s.syncEnd cfg writerOk flushOk) else none
  | .flush ok => if s.caller = .idle then s.flush cfg ok else none
  | .finalizeEnd writerOk finalizeOk =>
    if s.caller = .finalizeWait ∧ s.wg = 0 then s.finalizeEnd cfg writerOk finalizeOk else none
  | .unlink => if s.caller = .idle then some s.unlink else none
  | .unlinkEnd =>
    if s.caller = .unlinkWait ∧ s.wg = 0 then
      some ((s.clearFreeBlockChannel false).1.reply .unlink)
    else none
  | .destroy => if s.caller = .idle then s.destroy else none
  | .uploaderTake =>
    match s.uploading, s.uploadCh with
    | none, b :: rest =>
      if s.uploaderStarted then some { s with uploading := some b, uploadCh := rest } else none
    | _, _ => none
  | .uploaderFinish r =>
    match s.uploading with
    | some b => do
      let t ← s.uploadBlock b r
      let t ← t.release b
      let t ← t.done
      some { t with uploading := none }
    | none => none

/-! ### What a step can do

One inversion lemma per action, with its guard, so that the invariants
over steps never unfold `step`. -/

section StepCases

variable {cfg s} {t : BufferedWriteHandler}

theorem step_write {offset : ℤ} {data : List UInt8} (h : s.step cfg (.write offset data) = some t) :
    s.caller = .idle ∧ t = s.write offset data := by
  dsimp only [step] at h
  split at h
  · exact ⟨‹_›, (Option.some.inj h).symm⟩
  · cases h

theorem step_appendStep {ok created : Bool} (h : s.step cfg (.appendStep ok created) = some t) :
    ∃ pending dataWritten calls after, s.caller = .appending pending dataWritten calls after ∧
      s.appendStep cfg pending dataWritten calls after ok created = some t := by
  dsimp only [step] at h
  split at h
  · exact ⟨_, _, _, _, ‹_›, h⟩
  · cases h

theorem step_truncate {size : ℤ} (h : s.step cfg (.truncate size) = some t) :
    s.caller = .idle ∧ t = s.truncate size := by
  dsimp only [step] at h
  split at h
  · exact ⟨‹_›, (Option.some.inj h).symm⟩
  · cases h

theorem step_sync {ok : Bool} (h : s.step cfg (.sync ok) = some t) :
    s.caller = .idle ∧ s.sync cfg ok = some t := by
  dsimp only [step] at h
  split at h
  · exact ⟨‹_›, h⟩
  · cases h

theorem step_syncEnd {writerOk flushOk : Bool} (h : s.step cfg (.syncEnd writerOk flushOk) = some t) :
    (s.caller = .syncWait ∧ s.wg = 0) ∧ t = s.syncEnd cfg writerOk flushOk := by
  dsimp only [step] at h
  split at h
  · exact ⟨‹_›, (Option.some.inj h).symm⟩
  · cases h

theorem step_flush {ok : Bool} (h : s.step cfg (.flush ok) = some t) :
    s.caller = .idle ∧ s.flush cfg ok = some t := by
  dsimp only [step] at h
  split at h
  · exact ⟨‹_›, h⟩
  · cases h

theorem step_finalizeEnd {writerOk finalizeOk : Bool}
    (h : s.step cfg (.finalizeEnd writerOk finalizeOk) = some t) :
    (s.caller = .finalizeWait ∧ s.wg = 0) ∧ s.finalizeEnd cfg writerOk finalizeOk = some t := by
  dsimp only [step] at h
  split at h
  · exact ⟨‹_›, h⟩
  · cases h

theorem step_unlink (h : s.step cfg .unlink = some t) : s.caller = .idle ∧ t = s.unlink := by
  dsimp only [step] at h
  split at h
  · exact ⟨‹_›, (Option.some.inj h).symm⟩
  · cases h

theorem step_unlinkEnd (h : s.step cfg .unlinkEnd = some t) :
    (s.caller = .unlinkWait ∧ s.wg = 0) ∧ t = (s.clearFreeBlockChannel false).1.reply .unlink := by
  dsimp only [step] at h
  split at h
  · exact ⟨‹_›, (Option.some.inj h).symm⟩
  · cases h

theorem step_destroy (h : s.step cfg .destroy = some t) : s.caller = .idle ∧ s.destroy = some t := by
  dsimp only [step] at h
  split at h
  · exact ⟨‹_›, h⟩
  · cases h

theorem step_uploaderTake (h : s.step cfg .uploaderTake = some t) :
    ∃ b rest, s.uploading = none ∧ s.uploadCh = b :: rest ∧ s.uploaderStarted = true ∧
      t = { s with uploading := some b, uploadCh := rest } := by
  dsimp only [step] at h
  split at h
  · rename_i b rest hu hch
    split at h
    · exact ⟨b, rest, hu, hch, ‹_›, (Option.some.inj h).symm⟩
    · cases h
  · cases h

theorem step_uploaderFinish {r : CopyResult} (h : s.step cfg (.uploaderFinish r) = some t) :
    ∃ b, s.uploading = some b ∧
      (do
        let t ← s.uploadBlock b r
        let t ← t.release b
        let t ← t.done
        some { t with uploading := none }) = some t := by
  dsimp only [step] at h
  split at h
  · exact ⟨_, ‹_›, h⟩
  · cases h

end StepCases

end BufferedWriteHandler

end BufferedWrite

end GcsFuse
