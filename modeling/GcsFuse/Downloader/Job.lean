import GcsFuse.Common.Run
import GcsFuse.Downloader.ParallelJob
/-!
# Download job — the state machine

`internal/cache/file/downloader/job.go`. A job downloads one object into
its cache file. `Download` starts the goroutine `downloadObjectAsync` on
the first call and subscribes callers who wait for an offset;
`Invalidate` marks the job `Invalid` and, while a download runs, cancels
it and waits for it to end; the goroutine reports offsets, then a final
status, closes the file and cleans up.

Each step is one critical section under `job.mu` or one step of the
goroutine between them. `Invalidate` of a running download is two steps:
the one that sets `Invalid` and cancels, and the one after `doneCh` is
closed that sets `Invalid` again and notifies. The goroutine runs
`downloadObjectToFile`, whose loop reports each `ReadChunkSize` piece, or,
with parallel downloads enabled, `parallelDownloadObjectToFile`, whose
goroutines report the ranges they wrote to `updateRangeMap` in any order
(`parallelRanges`: `reportedRanges` of the job); what the bucket, the
file system and the file-info cache answer is the step's outcome. The
job also keeps, for the proofs, every subscription made and every
notification sent.
-/

namespace GcsFuse

namespace Downloader

/-- `jobStatusName`. -/
inductive JobStatusName
  | notStarted
  | downloading
  | completed
  | failed
  | invalid
  deriving DecidableEq, Repr

/-- The errors the goroutine tells apart: `context.Canceled`,
`lru.ErrEntryNotExist`, and the rest. -/
inductive JobError
  | canceled
  | entryNotExist
  | other
  deriving DecidableEq, Repr

/-- `JobStatus`. -/
structure JobStatus where
  name : JobStatusName
  err : Option JobError
  offset : ℕ
  deriving DecidableEq, Repr

/-- Where the goroutine `downloadObjectAsync` is. -/
inductive AsyncPhase
  /-- Not started by `Download`. -/
  | unstarted
  /-- `createCacheFile`. -/
  | creating
  /-- The loop of `downloadObjectToFile` at `start`, with the reader open
  up to `newReaderLimit`. -/
  | looping (start : ℕ) (newReaderLimit : Option ℕ)
  /-- `parallelDownloadObjectToFile`: the ranges its goroutines have still
  to report, the range map of `updateRangeMap`, and the first error a
  goroutine returned to the group. -/
  | parallel (pending : List (ℕ × ℕ)) (rangeMap : AList (fun _ : ℕ => ℕ)) (failed : Option JobError)
  /-- Past `parallelDownloadObjectToFile`, which returned no error. -/
  | parallelDone
  /-- The deferred `cacheFile.Close`. -/
  | closing
  /-- The deferred `cleanUpDownloadAsyncJob`. -/
  | cleaning
  /-- `doneCh` is closed. -/
  | done
  deriving DecidableEq

/-- What one round of the loop of `downloadObjectToFile` meets. -/
inductive ChunkOutcome
  /-- The piece is copied and `updateStatusOffset` succeeds. -/
  | written
  /-- The piece is copied; the file-info entry is gone. -/
  | entryGone
  /-- The piece is copied; `updateStatusOffset` fails otherwise. -/
  | updateFailed
  /-- `NewReaderWithReadHandle` or `io.CopyN` fails, with
  `context.Canceled` or not. -/
  | readFailed (canceled : Bool)
  deriving DecidableEq, Repr

/-- What the steps after the loop meet: `Truncate` and `validateCRC`. -/
inductive VerifyOutcome
  | ok
  | truncateFailed
  | crcFailed (canceled : Bool)
  deriving DecidableEq, Repr

/-- The job's mutable state. `cancelFunc` says whether it is set;
`invalidators` holds, for each `Invalidate` between its two steps,
whether it waits on `doneCh`. `subscribed` and `notified` record every
subscription and every notification. -/
structure Job where
  status : JobStatus
  subscribers : List (ℕ × ℕ)
  phase : AsyncPhase
  cancelFunc : Bool
  ctxCanceled : Bool
  invalidators : List Bool
  nextSubscriber : ℕ
  subscribed : List (ℕ × ℕ)
  notified : List (ℕ × JobStatus)

/-- `init`, after `NewJob`. -/
def Job.init : Job :=
  ⟨⟨.notStarted, none, 0⟩, [], .unstarted, false, false, [], 0, [], []⟩

/-- The calls on a job and the goroutine's steps. -/
inductive JobAction
  | download (offset : ℕ) (waitForDownload : Bool)
  | getStatus
  | invalidate
  | invalidateResume (waits : Bool)
  | asyncCreate (ok : Bool)
  | asyncChunk (outcome : ChunkOutcome)
  /-- A goroutine of the parallel download is done with the `i`-th range
  it has still to report. -/
  | asyncRange (i : ℕ) (outcome : ChunkOutcome)
  /-- `group.Wait()` returned; `joined` says whether `handleJobCompletion`
  found the group's context cancelled. -/
  | asyncParallelEnd (joined : Bool)
  | asyncVerify (outcome : VerifyOutcome)
  | asyncClose (ok : Bool)
  | asyncCleanup

/-- The test of `notifySubscribers`. -/
def notifiable (status : JobStatus) (subscribedOffset : ℕ) : Bool :=
  status.name = .failed || status.name = .invalid || subscribedOffset ≤ status.offset

/-- The loop of `notifySubscribers`: the subscribers that stay, and the
notifications sent, in order. -/
def notifyLoop (status : JobStatus) : List (ℕ × ℕ) → List (ℕ × ℕ) × List (ℕ × JobStatus)
  | [] => ([], [])
  | sub :: subs =>
    let r := notifyLoop status subs
    if notifiable status sub.2 then (r.1, (sub.1, status) :: r.2) else (sub :: r.1, r.2)

namespace Job

/-- `notifySubscribers`. -/
def notifySubscribers (j : Job) : Job :=
  let r := notifyLoop j.status j.subscribers
  { j with subscribers := r.1, notified := j.notified ++ r.2 }

/-- `subscribe`. -/
def subscribe (j : Job) (subscribedOffset : ℕ) : Job :=
  { j with
    subscribers := j.subscribers ++ [(j.nextSubscriber, subscribedOffset)]
    nextSubscriber := j.nextSubscriber + 1
    subscribed := j.subscribed ++ [(j.nextSubscriber, subscribedOffset)] }

/-- `updateStatusAndNotifySubscribers`. -/
def updateStatusAndNotifySubscribers (j : Job) (statusName : JobStatusName)
    (statusErr : Option JobError) : Job :=
  notifySubscribers { j with status := { j.status with name := statusName, err := statusErr } }

/-- `handleError`: `Invalid` for a cancellation, `Failed` otherwise. -/
def handleError (j : Job) (err : JobError) : Job :=
  if err = .canceled then j.updateStatusAndNotifySubscribers .invalid (some err)
  else j.updateStatusAndNotifySubscribers .failed (some err)

/-- `updateStatusOffset` after it wrote the file-info cache. -/
def updateStatusOffset (j : Job) (downloadedOffset : ℕ) : Job :=
  notifySubscribers { j with status := { j.status with offset := downloadedOffset } }

/-- The error a failed read reports. -/
def readError (canceled : Bool) : JobError := if canceled then .canceled else .other

variable (size sequentialReadSize : ℕ)

/-- `Download`, under `job.mu`. -/
def download (j : Job) (offset : ℕ) (waitForDownload : Bool) : Job :=
  if size < offset then j
  else
    match j.status.name with
    | .completed => j
    | .notStarted =>
      -- start the goroutine with a fresh context
      let j' := { j with
        status := { j.status with name := .downloading }
        cancelFunc := true, ctxCanceled := false, phase := .creating }
      if waitForDownload then j'.subscribe offset else j'
    | .failed | .invalid => j
    | .downloading =>
      if offset ≤ j.status.offset ∨ !waitForDownload then j else j.subscribe offset

/-- The part of `Invalidate` after the download is over: `Invalid`, and
the subscribers are told. -/
def invalidateRest (j : Job) : Job :=
  notifySubscribers { j with status := { j.status with name := .invalid } }

/-- `Invalidate` up to `cancel`: a running download is marked `Invalid`
and cancelled, and `job.mu` is released for it to end. -/
def invalidate (j : Job) : Job :=
  if j.status.name = .downloading then
    { j with
      status := { j.status with name := .invalid }
      ctxCanceled := j.ctxCanceled || j.cancelFunc
      invalidators := j.invalidators ++ [j.cancelFunc] }
  else j.invalidateRest

/-- The rest of an `Invalidate` that released `job.mu`: it waits for
`doneCh` if it cancelled a download. -/
def invalidateResume (j : Job) (waits : Bool) : Option Job :=
  if waits ∈ j.invalidators ∧ (waits = false ∨ j.phase = .done) then
    some { j with invalidators := j.invalidators.erase waits }.invalidateRest
  else none

variable (parallelRanges : Option (List (ℕ × ℕ)))

/-- `createCacheFile`, then `parallelDownloadObjectToFile` over the ranges
its goroutines report when parallel downloads are enabled, else
`downloadObjectToFile`; on an error nothing is open to close. -/
def asyncCreate (j : Job) (ok : Bool) : Option Job :=
  if j.phase = .creating then
    if ok then
      match parallelRanges with
      | some ranges => some { j with phase := .parallel ranges ∅ none }
      | none => some { j with phase := .looping 0 none }
    else some { j.handleError .other with phase := .cleaning }
  else none

/-- One round of the loop of `downloadObjectToFile`: open a reader if
none is open, copy up to `ReadChunkSize` bytes, and report the new offset
under `job.mu`. A failure ends the body of `downloadObjectAsync`. A read
fails with `context.Canceled` only once the context is cancelled. -/
def asyncChunk (j : Job) (outcome : ChunkOutcome) : Option Job :=
  match j.phase with
  | .looping start newReaderLimit =>
    if start < size then
      let limit := newReaderLimit.getD (min (start + sequentialReadSize) size)
      let start' := start + min readChunkSize (limit - start)
      let next := if start' = limit then none else some limit
      match outcome with
      | .written => some { j.updateStatusOffset start' with phase := .looping start' next }
      | .entryGone =>
        some { j.updateStatusAndNotifySubscribers .invalid (some .entryNotExist) with phase := .closing }
      | .updateFailed => some { j.handleError .other with phase := .closing }
      | .readFailed canceled =>
        if canceled ∧ !j.ctxCanceled then none
        else some { j.handleError (readError canceled) with phase := .closing }
    else none
  | _ => none

/-- A goroutine of `parallelDownloadObjectToFile` is done with the `i`-th
range it has still to report: `downloadRange` fails on it, or
`updateRangeMap` takes it under `job.mu`. The map is merged first; when
the joined run starts at `0`, `updateStatusOffset` moves the offset to
the run's end, or fails. An error of a goroutine cancels the group's
context, and the group keeps the first; a read fails with
`context.Canceled` only once that context is cancelled. -/
def asyncRange (j : Job) (i : ℕ) (outcome : ChunkOutcome) : Option Job :=
  match j.phase with
  | .parallel pending rangeMap failed =>
    match pending[i]? with
    | some (offsetStart, offsetEnd) =>
      let m := mergeRange rangeMap offsetStart offsetEnd
      let pending' := pending.eraseIdx i
      match outcome with
      | .written =>
        let j' := if m.2.1 = 0 then j.updateStatusOffset m.2.2 else j
        some { j' with phase := .parallel pending' m.1 failed }
      | .entryGone =>
        if m.2.1 = 0 then some { j with phase := .parallel pending' m.1 (failed.or (some .entryNotExist)) }
        else none
      | .updateFailed =>
        if m.2.1 = 0 then some { j with phase := .parallel pending' m.1 (failed.or (some .other)) }
        else none
      | .readFailed canceled =>
        if canceled ∧ !(j.ctxCanceled || failed.isSome) then none
        else some { j with phase := .parallel pending' rangeMap (failed.or (some (readError canceled))) }
    | none => none
  | _ => none

/-- The end of `parallelDownloadObjectToFile`, once `group.Wait()` has
returned: every range is reported, or the group's context is cancelled.
With `joined`, `handleJobCompletion` found that context cancelled, and
returns `context.Canceled` joined with the group's error. Then
`downloadObjectAsync`: `Invalid` for a file-info entry that is gone,
`handleError` for another error, and the verification after none. -/
def asyncParallelEnd (j : Job) (joined : Bool) : Option Job :=
  match j.phase with
  | .parallel pending _ failed =>
    if joined ∧ !(j.ctxCanceled || failed.isSome) then none
    else
      match failed with
      | some .entryNotExist =>
        some { j.updateStatusAndNotifySubscribers .invalid (some .entryNotExist) with phase := .closing }
      | some err => some { j.handleError (if joined then .canceled else err) with phase := .closing }
      | none =>
        if joined then some { j.handleError .canceled with phase := .closing }
        else if pending = [] then some { j with phase := .parallelDone }
        else none
  | _ => none

/-- `Truncate`, `validateCRC`, and the final status. -/
def verifyAndComplete (j : Job) (outcome : VerifyOutcome) : Option Job :=
  match outcome with
  | .ok => some { j.updateStatusAndNotifySubscribers .completed none with phase := .closing }
  | .truncateFailed => some { j.handleError .other with phase := .closing }
  | .crcFailed canceled =>
    if canceled ∧ !j.ctxCanceled then none
    else some { j.handleError (readError canceled) with phase := .closing }

/-- After the loop, or the parallel download: the verification. -/
def asyncVerify (j : Job) (outcome : VerifyOutcome) : Option Job :=
  match j.phase with
  | .looping start _ => if size ≤ start then j.verifyAndComplete outcome else none
  | .parallelDone => j.verifyAndComplete outcome
  | _ => none

/-- The deferred `cacheFile.Close`: a failure is reported. -/
def asyncClose (j : Job) (ok : Bool) : Option Job :=
  if j.phase = .closing then
    if ok then some { j with phase := .cleaning }
    else some { j.handleError .other with phase := .cleaning }
  else none

/-- `cleanUpDownloadAsyncJob`: cancel, clear `cancelFunc`, close `doneCh`. -/
def asyncCleanup (j : Job) : Option Job :=
  if j.phase = .cleaning then
    some { j with phase := .done, cancelFunc := false, ctxCanceled := true }
  else none

/-- One step of the job. A step that cannot be taken is `none`. -/
def step (j : Job) : JobAction → Option Job
  | .download offset waitForDownload => some (j.download size offset waitForDownload)
  | .getStatus => some j
  | .invalidate => some j.invalidate
  | .invalidateResume waits => j.invalidateResume waits
  | .asyncCreate ok => j.asyncCreate parallelRanges ok
  | .asyncChunk outcome => j.asyncChunk size sequentialReadSize outcome
  | .asyncRange i outcome => j.asyncRange i outcome
  | .asyncParallelEnd joined => j.asyncParallelEnd joined
  | .asyncVerify outcome => j.asyncVerify size outcome
  | .asyncClose ok => j.asyncClose ok
  | .asyncCleanup => j.asyncCleanup

end Job

end Downloader

end GcsFuse
