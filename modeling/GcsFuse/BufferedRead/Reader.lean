import GcsFuse.Block.Pool
/-!
# The buffered reader — the model

`internal/bufferedread/buffered_reader.go`, with `blockQueueEntry` and
the `downloadTask`. A buffered reader serves the reads of one file handle
from a queue of blocks it prefetches: block `i` holds the bytes
`[i * B, (i + 1) * B)` of the object, cut at its end, for the block size
`B`. A read waits for the block at the head of the queue, hands the kernel
slices of it without copying, and takes a reference on the block for each
slice; the kernel gives the references back through the response's
callback. A block leaves the queue when it is read to its end, when a
seek passes it, or when the download failed; it goes back to the pool
only once no slice points into it, and until then its entry is marked
`wasEvicted`.

Each step is one critical section under `p.mu`, a download task ending,
or the world around the reader: `ReadAt` holds `p.mu` for its whole loop,
but the loop waits in `AwaitReady` for downloads that run without it, so
one round of the loop is one step (`readStep`) and the call itself is
`reading`. `Destroy` empties the queue, then waits for the callbacks, at
most 10 seconds, and then clears the pool: two steps. The kernel calls
each callback once, and sends no read once `Destroy` began. Other readers
take and give back permits of the shared semaphore at any time.

Entries live on a heap, as the `*blockQueueEntry` pointers do: the queue
and the callbacks name them by index. The reader also keeps, for the
proofs, every response with the entries whose references it holds, so a
response whose callback is never set keeps them. A download that
succeeds delivers the object's bytes; `obj` is the object.
-/

namespace GcsFuse

namespace BufferedRead

open Block

/-- `BufferedReadConfig`. -/
structure BufferedReadConfig where
  maxPrefetchBlockCnt : ℕ
  prefetchBlockSizeBytes : ℕ
  initialPrefetchBlockCnt : ℕ
  minBlocksPerHandle : ℕ
  randomSeekThreshold : ℕ
  deriving DecidableEq, Repr

/-- `defaultPrefetchMultiplier`. -/
def defaultPrefetchMultiplier : ℕ := 2

/-- A `blockQueueEntry`: its block, and `wasEvicted`. Its `cancel` is the
download's context, which `cancelAndWait` ends. -/
structure BlockQueueEntry where
  block : ℕ
  wasEvicted : Bool
  deriving DecidableEq, Repr

/-- The errors of `ReadAt`. -/
inductive ReadErr
  /-- `io.EOF`, for an offset at or past the object's end. -/
  | eof
  /-- `gcsx.FallbackToAnotherReader`. -/
  | fallbackToAnotherReader
  /-- The context of the read ended in `AwaitReady`. -/
  | awaitReady
  /-- The block's download failed. -/
  | downloadFailed
  /-- `ReadAtSlice` outside the downloaded bytes. -/
  | outOfBounds
  deriving DecidableEq, Repr

/-- What `scheduleNextBlock` fails with: `ErrPrefetchBlockNotAvailable`,
or the error of `SetAbsStartOff`. -/
inductive ScheduleErr
  | prefetchBlockNotAvailable
  | setAbsStartOff
  deriving DecidableEq, Repr

/-- A `ReadAt` in its loop: the request, how far it got, the slices it
will return and the entries it took a reference on. -/
structure ReadCall where
  offset : ℕ
  len : ℕ
  readOffset : ℕ
  bytesRead : ℕ
  dataSlices : List (List UInt8)
  entriesToCallback : List ℕ
  prefetchTriggered : Bool
  deriving DecidableEq, Repr

/-- A `ReadResponse` with the error `ReadAt` returned: `held` are the
entries whose references it still holds, `callback` says whether the
kernel has its callback still to call. -/
structure ReadResponse where
  offset : ℕ
  len : ℕ
  err : Option ReadErr
  size : ℕ
  data : List (List UInt8)
  held : List ℕ
  callback : Bool
  deriving DecidableEq, Repr

/-- The state of a `BufferedReader` and what it shares: the heap of
blocks, the heap of entries and the semaphore's free permits. -/
structure BufferedReader where
  nextBlockIndexToPrefetch : ℕ
  randomSeekCount : ℕ
  numPrefetchBlocks : ℕ
  blockQueue : List ℕ
  blockPool : Option GenBlockPool
  blocks : List PrefetchBlock
  entries : List BlockQueueEntry
  globalPermits : ℕ
  inflightCallbackWg : ℕ
  reading : Option ReadCall
  responses : List ReadResponse
  destroying : Bool
  panicked : Bool
  deriving DecidableEq, Repr

/-- The steps of a buffered reader and of the world around it. -/
inductive Action
  /-- `ReadAt`, up to its loop; `sequential` is what the shared read-type
  classifier says. -/
  | readAt (offset len : ℕ) (sequential : Bool)
  /-- One round of the loop of `ReadAt`; `ctxDone` says whether the read's
  context ends while it waits. -/
  | readStep (ctxDone : Bool)
  /-- The download task of the queued entry ends. -/
  | complete (entry : ℕ) (ok : Bool)
  /-- The kernel calls the callback of a response. -/
  | callback (response : ℕ)
  /-- `Destroy`, up to its wait. -/
  | destroy
  /-- The rest of `Destroy`, once the callbacks are done or it timed out. -/
  | destroyEnd (timedOut : Bool)
  /-- Other readers leave `permits` free on the shared semaphore. -/
  | setPermits (permits : ℕ)

namespace BufferedReader

/-- The entry at a heap index. -/
def entry (s : BufferedReader) (e : ℕ) : BlockQueueEntry := s.entries.getD e ⟨0, false⟩

/-- The block at a heap index. -/
def block (s : BufferedReader) (b : ℕ) : PrefetchBlock := s.blocks.getD b .create

/-- The block of an entry. -/
def blockOf (s : BufferedReader) (e : ℕ) : PrefetchBlock := s.block (s.entry e).block

/-- Change a block on the heap. -/
def setBlock (s : BufferedReader) (b : ℕ) (blk : PrefetchBlock) : BufferedReader :=
  { s with blocks := s.blocks.set b blk }

/-- `p.blockPool.Release`: a released pool panics like a full channel. -/
def release (s : BufferedReader) (b : ℕ) : Option BufferedReader :=
  match s.blockPool with
  | some pool => (pool.release b).map fun pool => { s with blockPool := some pool }
  | none => none

/-- `releaseOrMarkEvicted`. -/
def releaseOrMarkEvicted (s : BufferedReader) (e : ℕ) : Option BufferedReader :=
  if 0 < (s.blockOf e).refCount then
    some { s with entries := s.entries.set e { s.entry e with wasEvicted := true } }
  else s.release (s.entry e).block

/-- `cancelAndWait`: a download still running ends, cancelled. -/
def cancelAndWait (s : BufferedReader) (e : ℕ) : BufferedReader :=
  let blk := s.blockOf e
  if blk.state = .inProgress then s.setBlock (s.entry e).block { blk with state := .downloadFailed }
  else s

/-- What `prepareQueueForOffset`, `handleRandomRead` and `Destroy` do
with an entry they popped. -/
def discard (s : BufferedReader) (e : ℕ) : Option BufferedReader :=
  (s.cancelAndWait e).releaseOrMarkEvicted e

/-- The loop that pops and discards every entry of the queue `es`. -/
def discardAll : List ℕ → BufferedReader → Option BufferedReader
  | [], s => some s
  | e :: es, s =>
    match discard { s with blockQueue := es } e with
    | some s => discardAll es s
    | none => none

/-- Pop and discard the whole queue. -/
def clearQueue (s : BufferedReader) : Option BufferedReader := discardAll s.blockQueue s

/-- `p.callback` on `es`, inside its lock: each reference is given back,
and a block whose entry was evicted goes back to the pool, if there is
one, with its last reference. -/
def callbackLoop : List ℕ → BufferedReader → Option BufferedReader
  | [], s => some s
  | e :: es, s =>
    match (s.blockOf e).decRef with
    | none => none
    | some (blk, zero) =>
      let s := s.setBlock (s.entry e).block blk
      if zero ∧ (s.entry e).wasEvicted ∧ s.blockPool.isSome then
        match s.release (s.entry e).block with
        | some s => callbackLoop es s
        | none => none
      else callbackLoop es s

/-- `p.callback`, with the deferred `inflightCallbackWg.Done` for each
entry; a negative count panics. -/
def callback (s : BufferedReader) (es : List ℕ) : Option BufferedReader :=
  match callbackLoop es s with
  | some s =>
    if es.length ≤ s.inflightCallbackWg then
      some { s with inflightCallbackWg := s.inflightCallbackWg - es.length }
    else none
  | none => none

section Config

variable (cfg : BufferedReadConfig)

/-- `isRandomSeek`: outside the window the queue covers; `none` when the
head is not placed (`AbsStartOff` panics). -/
def isRandomSeek (s : BufferedReader) (offset : ℕ) : Option Bool :=
  match s.blockQueue with
  | [] => some (offset ≠ 0)
  | e :: _ =>
    (s.blockOf e).absStartOff.map fun start =>
      offset < start || start + s.blockQueue.length * cfg.prefetchBlockSizeBytes ≤ offset

/-- `resetBufferedReaderState`. -/
def resetBufferedReaderState (s : BufferedReader) : BufferedReader :=
  { s with randomSeekCount := 0, nextBlockIndexToPrefetch := 0,
           numPrefetchBlocks := cfg.initialPrefetchBlockCnt }

/-- Past the threshold: restart on a sequential pattern, else fall back
(`true`). -/
def pastThreshold (s : BufferedReader) (sequential : Bool) : BufferedReader × Bool :=
  if sequential then (resetBufferedReaderState cfg s, false) else (s, true)

/-- `handleRandomRead`: the state, and whether to fall back. A random seek
empties the queue. -/
def handleRandomRead (s : BufferedReader) (offset : ℕ) (sequential : Bool) :
    Option (BufferedReader × Bool) :=
  if cfg.randomSeekThreshold < s.randomSeekCount then some (pastThreshold cfg s sequential)
  else
    match isRandomSeek cfg s offset with
    | none => none
    | some false => some (s, false)
    | some true =>
      match clearQueue { s with randomSeekCount := s.randomSeekCount + 1 } with
      | none => none
      | some s =>
        if cfg.randomSeekThreshold < s.randomSeekCount then some (pastThreshold cfg s sequential)
        else some (s, false)

/-- Whether the block of entry `e` holds `offset` (`blockStart ≤ offset <
blockEnd`, its capacity being the block size). -/
def holds (s : BufferedReader) (offset e : ℕ) : Option Bool :=
  (s.blockOf e).absStartOff.map fun start =>
    start ≤ offset && offset < start + cfg.prefetchBlockSizeBytes

/-- The loop of `prepareQueueForOffset` over the queue `es`. -/
def prepareLoop (offset : ℕ) : List ℕ → BufferedReader → Option BufferedReader
  | [], s => some s
  | e :: es, s =>
    match holds cfg s offset e with
    | none => none
    | some true => some s
    | some false =>
      match discard { s with blockQueue := es } e with
      | some s => prepareLoop offset es s
      | none => none

/-- `prepareQueueForOffset`: discard the head until it holds `offset`. -/
def prepareQueueForOffset (s : BufferedReader) (offset : ℕ) : Option BufferedReader :=
  prepareLoop cfg offset s.blockQueue s

/-- `scheduleBlockWithIndex`: block `b` placed at the index and queued
under a new entry; its download is scheduled. `none` is the error of
`SetAbsStartOff`. -/
def scheduleBlockWithIndex (s : BufferedReader) (b blockIndex : ℕ) : Option BufferedReader :=
  match (s.block b).setAbsStartOff (blockIndex * cfg.prefetchBlockSizeBytes) with
  | none => none
  | some blk =>
    some { (s.setBlock b blk) with
      entries := s.entries ++ [⟨b, false⟩]
      blockQueue := s.blockQueue ++ [s.entries.length] }

/-- `scheduleNextBlock`: a block from the pool at the next index. The
state is returned with the error too. -/
def scheduleNextBlock (s : BufferedReader) : Option (BufferedReader × Option ScheduleErr) :=
  match s.blockPool with
  | none => none
  | some pool =>
    match pool.tryGet s.blocks s.globalPermits with
    | none => some (s, some .prefetchBlockNotAvailable)
    | some (pool, blocks, permits, b) =>
      let s := { s with blockPool := some pool, blocks := blocks, globalPermits := permits }
      match scheduleBlockWithIndex cfg s b s.nextBlockIndexToPrefetch with
      | none => (s.release b).map fun s => (s, some .setAbsStartOff)
      | some s => some ({ s with nextBlockIndexToPrefetch := s.nextBlockIndexToPrefetch + 1 }, none)

/-- The loop of `prefetch`: up to `n` blocks; it stops when no block is
available, and returns the other error. The flag says whether all were
scheduled. -/
def prefetchLoop : ℕ → BufferedReader → Option (BufferedReader × Bool × Option ScheduleErr)
  | 0, s => some (s, true, none)
  | n + 1, s =>
    match scheduleNextBlock cfg s with
    | none => none
    | some (s, none) => prefetchLoop n s
    | some (s, some .prefetchBlockNotAvailable) => some (s, false, none)
    | some (s, some err) => some (s, false, some err)

variable (objectSize : ℕ)

/-- `prefetch`: as many blocks as the window, the free slots of the queue
and the rest of the object allow; the window doubles, up to the maximum,
when all were scheduled. -/
def prefetch (s : BufferedReader) : Option (BufferedReader × Option ScheduleErr) :=
  let blockSize := cfg.prefetchBlockSizeBytes
  let availableSlots := cfg.maxPrefetchBlockCnt - s.blockQueue.length
  let totalBlockCount := (objectSize + blockSize - 1) / blockSize
  let remainingBlocksInFile := totalBlockCount - s.nextBlockIndexToPrefetch
  let blockCountToPrefetch := min (min s.numPrefetchBlocks availableSlots) remainingBlocksInFile
  if availableSlots = 0 ∨ blockCountToPrefetch = 0 then some (s, none)
  else
    match prefetchLoop cfg blockCountToPrefetch s with
    | none => none
    | some (s, allScheduled, err) =>
      if allScheduled then
        let numPrefetchBlocks := min (s.numPrefetchBlocks * defaultPrefetchMultiplier) cfg.maxPrefetchBlockCnt
        some ({ s with numPrefetchBlocks := numPrefetchBlocks }, err)
      else some (s, err)

/-- `freshStart`: the block of `currentOffset` first, then a prefetch,
whose failure is only logged. -/
def freshStart (s : BufferedReader) (currentOffset : ℕ) :
    Option (BufferedReader × Option ScheduleErr) :=
  let s := { s with
    nextBlockIndexToPrefetch := currentOffset / cfg.prefetchBlockSizeBytes
    numPrefetchBlocks := min cfg.initialPrefetchBlockCnt cfg.maxPrefetchBlockCnt }
  match scheduleNextBlock cfg s with
  | none => none
  | some (s, some err) => some (s, some err)
  | some (s, none) => (prefetch cfg objectSize s).map fun r => (r.1, none)

/-- The deferred function of `ReadAt` and its return: a success gives the
slices and the callback, a fall back gives the references back at once,
and another error sets no callback. -/
def finish (s : BufferedReader) (c : ReadCall) (err : Option ReadErr) : Option BufferedReader :=
  let s := { s with reading := none }
  match err with
  | none =>
    some { s with responses := s.responses ++
      [⟨c.offset, c.len, none, c.bytesRead, c.dataSlices, c.entriesToCallback, true⟩] }
  | some .fallbackToAnotherReader =>
    (s.callback c.entriesToCallback).map fun s => { s with responses := s.responses ++
      [⟨c.offset, c.len, some .fallbackToAnotherReader, 0, [], [], false⟩] }
  | some err =>
    some { s with responses := s.responses ++
      [⟨c.offset, c.len, some err, 0, [], c.entriesToCallback, false⟩] }

/-- `ReadAt` up to its loop: the checks made without the lock, then
`handleRandomRead`. -/
def readAt (s : BufferedReader) (offset len : ℕ) (sequential : Bool) : Option BufferedReader :=
  if objectSize ≤ offset then
    some { s with responses := s.responses ++ [⟨offset, len, some .eof, 0, [], [], false⟩] }
  else if len = 0 then
    some { s with responses := s.responses ++ [⟨offset, len, none, 0, [], [], false⟩] }
  else
    let c : ReadCall := ⟨offset, len, offset, 0, [], [], false⟩
    match handleRandomRead cfg s offset sequential with
    | none => none
    | some (s, true) => finish s c (some .fallbackToAnotherReader)
    | some (s, false) => some { s with reading := some c }

/-- The top of a round of the loop: the queue cleaned for the offset, and
a fresh start on an empty queue; no read call when `freshStart` failed. -/
def prepare (s : BufferedReader) (c : ReadCall) : Option (BufferedReader × Option ReadCall) :=
  match prepareQueueForOffset cfg s c.readOffset with
  | none => none
  | some s =>
    if s.blockQueue = [] then
      match freshStart cfg objectSize s c.readOffset with
      | none => none
      | some (s, some _) => some (s, none)
      | some (s, none) => some (s, some { c with prefetchTriggered := true })
    else some (s, some c)

/-- A block read to its end leaves the queue; the first one a read
consumes triggers a prefetch, whose failure is only logged. -/
def popConsumed (s : BufferedReader) (c : ReadCall) (e : ℕ) : Option BufferedReader :=
  match releaseOrMarkEvicted { s with blockQueue := s.blockQueue.tail } e with
  | none => none
  | some s =>
    if c.prefetchTriggered then some { s with reading := some c }
    else
      (prefetch cfg objectSize s).map fun r =>
        { r.1 with reading := some { c with prefetchTriggered := true } }

/-- The slice a read takes from its head entry `e`, whose block starts at
`start`: the reference, and the block popped if it is read to its end. -/
def takeSlice (s : BufferedReader) (c : ReadCall) (e start : ℕ) (data : List UInt8) :
    Option BufferedReader :=
  let blk := s.blockOf e
  let c := { c with bytesRead := c.bytesRead + data.length, readOffset := c.readOffset + data.length }
  let (s, c) :=
    if 0 < data.length then
      ({ (s.setBlock (s.entry e).block blk.incRef) with
          inflightCallbackWg := s.inflightCallbackWg + 1 },
        { c with dataSlices := c.dataSlices ++ [data], entriesToCallback := c.entriesToCallback ++ [e] })
    else (s, c)
  if objectSize ≤ c.readOffset then finish s c none
  else if start + blk.size ≤ c.readOffset then popConsumed cfg objectSize s c e
  else some { s with reading := some c }

/-- The rest of a round, at the head entry `e`: wait for its block, then
drop a failed block, or read from a downloaded one. -/
def consume (s : BufferedReader) (c : ReadCall) (e : ℕ) (ctxDone : Bool) : Option BufferedReader :=
  let blk := s.blockOf e
  match blk.state with
  | .inProgress =>
    if ctxDone then finish s c (some .awaitReady) else some { s with reading := some c }
  | .downloadFailed =>
    match release { s with blockQueue := s.blockQueue.tail } (s.entry e).block with
    | none => none
    | some s => finish s c (some .downloadFailed)
  | .downloaded =>
    match blk.absStartOff with
    | none => none
    | some start =>
      let slice := if c.readOffset < start then none
        else blk.readAtSlice (c.readOffset - start) (c.len - c.bytesRead)
      match slice with
      | none => finish s c (some .outOfBounds)
      | some (data, _) => takeSlice cfg objectSize s c e start data

/-- One round of the loop of `ReadAt`. -/
def readStep (s : BufferedReader) (c : ReadCall) (ctxDone : Bool) : Option BufferedReader :=
  if c.len ≤ c.bytesRead then finish s c none
  else
    match prepare cfg objectSize s c with
    | none => none
    | some (s, none) => finish s c (some .fallbackToAnotherReader)
    | some (s, some c) =>
      match s.blockQueue with
      | [] => none
      | e :: _ => consume cfg objectSize s c e ctxDone

/-- The download task of entry `e` ends: the bytes `[start, min (start +
B) size)` of the object, or a failure. -/
def complete (obj : ℕ → UInt8) (s : BufferedReader) (e : ℕ) (ok : Bool) : BufferedReader :=
  let blk := s.blockOf e
  let start := blk.absStartOff.getD 0
  let n := min cfg.prefetchBlockSizeBytes (objectSize - start)
  if ok then
    s.setBlock (s.entry e).block
      { blk with buffer := (List.range' start n).map obj, state := .downloaded }
  else s.setBlock (s.entry e).block { blk with state := .downloadFailed }

/-- The response at an index. -/
def response (s : BufferedReader) (i : ℕ) : ReadResponse :=
  s.responses.getD i ⟨0, 0, none, 0, [], [], false⟩

/-- The kernel calls the callback of response `i`: the response no longer
holds its references, and the callback gives them back. -/
def callbackResponse (s : BufferedReader) (i : ℕ) : Option BufferedReader :=
  let r := s.response i
  callback { s with responses := s.responses.set i { r with held := [], callback := false } } r.held

/-- `Destroy` up to its wait: the queue emptied. -/
def destroy (s : BufferedReader) : Option BufferedReader :=
  (clearQueue { s with destroying := true })

/-- The end of `Destroy`: the free blocks are deallocated and the pool is
gone. -/
def destroyEnd (s : BufferedReader) : BufferedReader :=
  match s.blockPool with
  | some pool => { s with blockPool := none, globalPermits := pool.clearFreeBlockChannel s.globalPermits }
  | none => s

end Config

/-- The state after a panic. -/
def panic (s : BufferedReader) : BufferedReader := { s with panicked := true }

/-- `NewBufferedReader`, with the semaphore's free permits. -/
def new (cfg : BufferedReadConfig) (objectSize globalPermits : ℕ) : Option BufferedReader :=
  let blockSize := cfg.prefetchBlockSizeBytes
  if blockSize = 0 then none
  else
    let blocksInFile := (objectSize + blockSize - 1) / blockSize
    let numBlocksToReserve := min blocksInFile cfg.minBlocksPerHandle
    (GenBlockPool.new blockSize cfg.maxPrefetchBlockCnt numBlocksToReserve globalPermits).map
      fun r => ⟨0, 0, cfg.initialPrefetchBlockCnt, [], some r.1, [], [], r.2, 0, none, [], false, false⟩

/-- One step. A step that cannot happen is `none`; a step that panics
leaves the reader `panicked`, and nothing happens after. -/
def step (cfg : BufferedReadConfig) (objectSize : ℕ) (obj : ℕ → UInt8) (s : BufferedReader) :
    Action → Option BufferedReader
  | .readAt offset len sequential =>
    if s.panicked ∨ s.reading.isSome ∨ s.destroying then none
    else some ((readAt cfg objectSize s offset len sequential).getD s.panic)
  | .readStep ctxDone =>
    if s.panicked then none
    else s.reading.map fun c => (readStep cfg objectSize s c ctxDone).getD s.panic
  | .complete e ok =>
    if s.panicked ∨ e ∉ s.blockQueue ∨ (s.blockOf e).state ≠ .inProgress then none
    else some (complete cfg objectSize obj s e ok)
  | .callback i =>
    if s.panicked ∨ s.reading.isSome ∨ (s.response i).callback = false then none
    else some ((callbackResponse s i).getD s.panic)
  | .destroy =>
    if s.panicked ∨ s.reading.isSome ∨ s.destroying then none
    else some ((destroy s).getD s.panic)
  | .destroyEnd timedOut =>
    if s.panicked ∨ !s.destroying ∨ s.blockPool.isNone ∨ (!timedOut ∧ s.inflightCallbackWg ≠ 0)
    then none
    else some (destroyEnd s)
  | .setPermits permits => if s.panicked then none else some { s with globalPermits := permits }

end BufferedReader

end BufferedRead

end GcsFuse
