import GcsFuse.Common.Runs
import GcsFuse.Data.FileInfo
import GcsFuse.Gcs.Object
/-!
# Parallel downloads — the range map and the status offset

`internal/cache/file/downloader/parallel_downloads_job.go`. The driver
`parallelDownloadObjectToFile` cuts the object into chunks of
`download-chunk-size-mb`; goroutines download them in any order, and on
the default-on path report each 8 MiB piece as it is written. Each report
is one call of `updateRangeMap` under `job.mu`: it joins the piece with
the run of finished bytes that ends at its start and the one that starts
at its end, in a `map[int64]int64` that holds each run under both of its
endpoints, and when the joined run starts at 0 it moves `status.Offset`
to its end through `updateStatusOffset`, which writes the new offset to
the file-info cache.

The map and the offset are the job state. Offsets are naturals: the
driver only produces offsets in `[0, object.Size)`. The file-info cache is
shared with every other caller, so each call sees it as they left it.

The map half is the library's merge (`Runs.Encodes.union`); the offset
half follows the covered prefix while every `updateStatusOffset`
succeeds, and stays behind it from the first one that fails
(`updateRangeMap_offset_lags`).
-/

namespace GcsFuse

namespace Downloader

open Data Gcs Lru Runs

/-- `ReadChunkSize`: 8 MiB. -/
def readChunkSize : ℕ := 8 * 1024 * 1024

/-- What a job reads of its constant data on these paths. -/
structure JobSpec where
  bucketName : String
  object : MinObject
  cacheDirVolumeBlockSize : UInt64
  downloadChunkSizeMb : ℕ
  experimentalParallelDownloadsDefaultOn : Bool

/-- The mutable state these paths change: the range map, and
`status.Offset`. -/
structure ParallelJob where
  rangeMap : AList (fun _ : ℕ => ℕ)
  offset : ℕ

/-- What `updateStatusOffset` returns on failure. -/
inductive StatusOffsetError
  /-- The key of the object could not be built. -/
  | key
  /-- `UpdateWithoutChangingOrder` failed. -/
  | update (err : LruError)
  deriving DecidableEq, Repr

/-- `updateStatusOffset`: write a `FileInfo` with the new offset over the
object's entry. The entry must be there, at the same size. -/
def updateStatusOffset (job : JobSpec) (fileInfoCache : Cache FileInfo) (downloadedOffset : ℕ) :
    Except StatusOffsetError (Cache FileInfo) :=
  let fileInfoKey : FileInfoKey := ⟨job.bucketName, zeroTimeUnix, job.object.name⟩
  match fileInfoKey.key with
  | none => .error .key
  | some fileInfoKeyName =>
    let updatedFileInfo : FileInfo := ⟨fileInfoKey, job.object.generation,
      UInt64.ofNat downloadedOffset, job.object.size, false, none, job.cacheDirVolumeBlockSize⟩
    -- a non-sparse `FileInfo` points to no map, so its size reads none
    match updateWithoutChangingOrder (FileInfo.size []) fileInfoCache fileInfoKeyName
        (some updatedFileInfo) with
    | .ok c => .ok c
    | .error err => .error (.update err)

/-- The left half of `updateRangeMap`: a run ending at `offsetStart` is
taken out, and the joined run starts where it started. -/
def mergeLeft (rangeMap : AList (fun _ : ℕ => ℕ)) (offsetStart : ℕ) :
    AList (fun _ : ℕ => ℕ) × ℕ :=
  if offsetStart ≠ 0 then
    match rangeMap.lookup offsetStart with
    | some leftStart => ((rangeMap.erase offsetStart).erase leftStart, leftStart)
    | none => (rangeMap, offsetStart)
  else (rangeMap, offsetStart)

/-- The right half: a run starting at `offsetEnd` is taken out, and the
joined run ends where it ended. -/
def mergeRight (rangeMap : AList (fun _ : ℕ => ℕ)) (offsetEnd : ℕ) : AList (fun _ : ℕ => ℕ) × ℕ :=
  match rangeMap.lookup offsetEnd with
  | some rightEnd => ((rangeMap.erase offsetEnd).erase rightEnd, rightEnd)
  | none => (rangeMap, offsetEnd)

/-- The map part of `updateRangeMap`: the new map, `finalStart` and
`finalEnd`. -/
def mergeRange (rangeMap : AList (fun _ : ℕ => ℕ)) (offsetStart offsetEnd : ℕ) :
    AList (fun _ : ℕ => ℕ) × ℕ × ℕ :=
  let l := mergeLeft rangeMap offsetStart
  let r := mergeRight l.1 offsetEnd
  ((r.1.insert l.2 r.2).insert r.2 l.2, l.2, r.2)

/-- `updateRangeMap`. The map is updated first; an error of
`updateStatusOffset` is returned with the map merged and the offset
where it was. -/
def updateRangeMap (job : JobSpec) (fileInfoCache : Cache FileInfo) (st : ParallelJob)
    (offsetStart offsetEnd : ℕ) : ParallelJob × Except StatusOffsetError (Cache FileInfo) :=
  let m := mergeRange st.rangeMap offsetStart offsetEnd
  if m.2.1 = 0 then
    match updateStatusOffset job fileInfoCache m.2.2 with
    | .ok c => (⟨m.1, m.2.2⟩, .ok c)
    | .error err => (⟨m.1, st.offset⟩, .error err)
  else (⟨m.1, st.offset⟩, .ok fileInfoCache)

/-- The ranges `parallelDownloadObjectToFile` sends on `rangeChan`, from
`start`: chunks of `downloadChunkSize`, the last cut at `size`. (The
configuration keeps the chunk size positive; at `0` the Go loop would not
end.) -/
def objectRanges (size downloadChunkSize start : ℕ) : List (ℕ × ℕ) :=
  if _ : start < size ∧ 0 < downloadChunkSize then
    (start, min size (start + downloadChunkSize)) ::
      objectRanges size downloadChunkSize (min size (start + downloadChunkSize))
  else []
termination_by size - start
decreasing_by omega

/-- The pieces the loop of `downloadRange` writes and reports on the
default-on path: `ReadChunkSize` bytes at a time. -/
def writeRanges (start stop : ℕ) : List (ℕ × ℕ) :=
  if _ : start < stop then
    (start, start + min (stop - start) readChunkSize) ::
      writeRanges (start + min (stop - start) readChunkSize) stop
  else []
termination_by stop - start
decreasing_by
  have : 0 < readChunkSize := by decide
  omega

/-- The ranges the goroutines report to `updateRangeMap`. -/
def reportedRanges (job : JobSpec) : List (ℕ × ℕ) :=
  let chunks := objectRanges job.object.size.toNat (job.downloadChunkSizeMb * 1024 * 1024) 0
  if job.experimentalParallelDownloadsDefaultOn then chunks.flatMap fun r => writeRanges r.1 r.2
  else chunks

/-- The reports in the order they take `job.mu`, each with the file-info
cache as the other callers left it; and whether every call succeeded. -/
def updateRangeMaps (job : JobSpec) : ParallelJob → List (Cache FileInfo × ℕ × ℕ) → ParallelJob × Bool
  | st, [] => (st, true)
  | st, (c, offsetStart, offsetEnd) :: calls =>
    let r := updateRangeMap job c st offsetStart offsetEnd
    let rest := updateRangeMaps job r.1 calls
    (rest.1, r.2.isOk && rest.2)

end Downloader

end GcsFuse
