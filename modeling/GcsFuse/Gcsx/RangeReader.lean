import Mathlib.Data.List.Basic
/-!
# Reads from GCS — the range reader and its prefetch window

`internal/gcsx/client_readers/range_reader.go`, `gcs_reader.go` and
`internal/gcsx/read_type_classifier.go`, with the read manager's calls
around them (`read_manager.go`), on a bucket that is not rapid: every
read goes to the `RangeReader`.

A `RangeReader` keeps one open stream of the object, over `[start,
limit)`, positioned at `start`. A read first skips forward, discarding
bytes, when the request is less than 8 MiB ahead; it drops the stream if
it is not at the request's offset or ends before the request does; it
then reads from the stream, or opens a new one over the prefetch window
the `ReadTypeClassifier` computes from the reads so far, which may be
smaller than the request. `io.ReadFull` stops at the end of the stream.

The bucket returns exactly the bytes of the range it is asked for: a
stream at `start` delivers `obj start`, `obj (start + 1)`, ... up to
`limit`. Offsets are those of the object, so naturals; the `-1` of a
reader never opened is kept as the Go code has it.
-/

namespace GcsFuse

namespace Gcsx

/-- `MB` (and `MiB`). -/
def mb : ℕ := 1048576

/-- `maxReadSize`: reads skip forward at most 8 MiB, and average reads of
8 MiB or more are sequential. -/
def maxReadSize : ℕ := 8 * mb

/-- `minReadSize`: 1 MiB. -/
def minReadSize : ℕ := mb

/-- The read types of `metrics`. -/
inductive ReadType
  | sequential
  | random
  deriving DecidableEq, Repr

/-- `ReadTypeClassifier`. -/
structure ReadTypeClassifier where
  readType : ReadType
  expectedOffset : ℕ
  seeks : ℕ
  totalReadBytes : ℕ
  sequentialReadSizeMb : ℕ
  initialOffset : ℕ

/-- `ReadInfo`. -/
structure ReadInfo where
  readType : ReadType
  expectedOffset : ℕ
  seekRecorded : Bool

namespace ReadTypeClassifier

/-- `NewReadTypeClassifier`: sequential to begin with. -/
def new (sequentialReadSizeMb initialOffset : ℕ) : ReadTypeClassifier :=
  ⟨.sequential, 0, 0, 0, sequentialReadSizeMb, initialOffset⟩

/-- `avgReadBytes`: the bytes read per seek. -/
def avgReadBytes (totalReadBytes numSeeks : ℕ) : ℕ :=
  if 0 < numSeeks then totalReadBytes / numSeeks else totalReadBytes

/-- `isSeekNeeded`: a random reader seeks whenever it leaves the expected
offset; a sequential one when it goes back or more than 8 MiB ahead. -/
def isSeekNeeded (rtc : ReadTypeClassifier) (offset : ℕ) : Bool :=
  if rtc.expectedOffset = 0 then false
  else
    match rtc.readType with
    | .random => rtc.expectedOffset ≠ offset
    | .sequential => offset < rtc.expectedOffset || rtc.expectedOffset + maxReadSize < offset

/-- `GetReadInfo`: count a seek, then classify by the average read size. -/
def getReadInfo (rtc : ReadTypeClassifier) (offset : ℕ) (seekRecorded : Bool) :
    ReadTypeClassifier × ReadInfo :=
  let seek := !seekRecorded && rtc.isSeekNeeded offset
  let numSeeks := if seek then rtc.seeks + 1 else rtc.seeks
  let readType : ReadType :=
    if maxReadSize ≤ avgReadBytes rtc.totalReadBytes numSeeks ∨
        (numSeeks = 0 ∧ rtc.initialOffset = 0) then .sequential
    else .random
  ({ rtc with readType := readType, seeks := numSeeks },
    ⟨readType, rtc.expectedOffset, seekRecorded || seek⟩)

/-- `ComputeSeqPrefetchWindowAndAdjustType`: after a seek, or from a first
read past 0, a window of the average read size rounded up to whole MiB
and clamped to `[minReadSize, maxReadSize]` while that average is below
8 MiB; otherwise `sequential-read-size-mb`. -/
def computeSeqPrefetchWindowAndAdjustType (rtc : ReadTypeClassifier) : ReadTypeClassifier × ℕ :=
  let averageReadBytes := avgReadBytes rtc.totalReadBytes rtc.seeks
  if (0 < rtc.seeks ∨ 0 < rtc.initialOffset) ∧ averageReadBytes < maxReadSize then
    let randomReadSize := (averageReadBytes + mb - 1) / mb * mb
    ({ rtc with readType := .random }, min (max randomReadSize minReadSize) maxReadSize)
  else ({ rtc with readType := .sequential }, rtc.sequentialReadSizeMb * mb)

/-- `RecordRead`. -/
def recordRead (rtc : ReadTypeClassifier) (offset sizeRead : ℕ) : ReadTypeClassifier :=
  { rtc with totalReadBytes := rtc.totalReadBytes + sizeRead, expectedOffset := offset + sizeRead }

end ReadTypeClassifier

/-- The stream state of a `RangeReader`: `reader` says whether a stream
is open; it is positioned at `start` and ends at `limit`. -/
structure RangeReader where
  start : Int
  limit : Int
  reader : Bool

/-- What a read returns: the bytes read and the object offset of the first. -/
structure ReadResult where
  size : ℕ
  position : ℕ

/-- Why a read fails. -/
inductive ReadError
  /-- `io.EOF` for an offset at or past the end. -/
  | eof
  /-- `reader returned extra bytes`. -/
  | extraBytes
  /-- `range reader returned early`: `util.ErrShortRead`. -/
  | shortRead
  deriving DecidableEq, Repr

namespace RangeReader

/-- `NewRangeReader`. -/
def new : RangeReader := ⟨-1, -1, false⟩

/-- The stream is closed; `start` and `limit` stay as they were. -/
def closeReader (rr : RangeReader) : RangeReader := { rr with reader := false }

/-- `skipBytes`: a stream less than 8 MiB behind the offset is read
forward; `io.CopyN` stops at the stream's end. -/
def skipBytes (rr : RangeReader) (offset : ℕ) : RangeReader :=
  if rr.reader ∧ rr.start < offset ∧ offset - rr.start < maxReadSize then
    { rr with start := rr.start + min (offset - rr.start) (rr.limit - rr.start) }
  else rr

/-- `invalidateReaderIfMisalignedOrTooSmall`: drop a stream that is not
at the offset or ends before the request does (cut at the object's end). -/
def invalidateReaderIfMisalignedOrTooSmall (size : ℕ) (rr : RangeReader)
    (startOffset endOffset : ℕ) : RangeReader :=
  let dataToRead : Int := min endOffset size
  if rr.reader ∧ (rr.start ≠ startOffset ∨ rr.limit < dataToRead) then rr.closeReader else rr

/-- `readFromRangeReader` with a buffer of `len`: open a stream over
`[offset, endOffset)` if none is open (`startRead`), then `readFull`,
which stops at the stream's end. A stream read to its end is closed. -/
def readFromRangeReader (rr : RangeReader) (len offset endOffset : ℕ) :
    RangeReader × Except ReadError ReadResult :=
  let rr := if rr.reader then rr else ⟨offset, endOffset, true⟩
  let n := min len (rr.limit - rr.start).toNat
  let position := rr.start.toNat
  let rr := { rr with start := rr.start + n }
  if rr.limit < rr.start then (⟨-1, -1, false⟩, .error .extraBytes)
  else
    let rr := if rr.start = rr.limit then rr.closeReader else rr
    -- `io.ReadFull` stops short only at the end of the stream
    if n < len ∧ rr.reader then (rr, .error .shortRead)
    else (rr, .ok ⟨n, position⟩)

/-- `RangeReader.ReadAt`: `readFromExistingReader`, then a new stream over
`[offset, endOffset)` if it falls back. `ForceCreateReader` is set only by
the retries of rapid buckets. -/
def readAt (size : ℕ) (rr : RangeReader) (len offset endOffset : ℕ) :
    RangeReader × Except ReadError ReadResult :=
  let rr := rr.skipBytes offset
  let rr := invalidateReaderIfMisalignedOrTooSmall size rr offset (offset + len)
  if rr.reader then readFromRangeReader rr len offset (offset + len)
  else readFromRangeReader rr len offset endOffset

end RangeReader

/-- A file handle's read path with no file cache and no buffered reader:
the read manager's classifier and the `GCSReader`'s range reader. -/
structure Reads where
  classifier : ReadTypeClassifier
  rangeReader : RangeReader

/-- The read path of a handle whose first read is at `initialOffset`. -/
def Reads.init (sequentialReadSizeMb initialOffset : ℕ) : Reads :=
  ⟨ReadTypeClassifier.new sequentialReadSizeMb initialOffset, RangeReader.new⟩

section Read

variable (size : ℕ)

/-- `getEndOffset`: the prefetch window from the offset, cut at the end of
the object. -/
def getEndOffset (rtc : ReadTypeClassifier) (start : ℕ) : ReadTypeClassifier × ℕ :=
  let w := rtc.computeSeqPrefetchWindowAndAdjustType
  (w.1, min (start + w.2) size)

/-- `GCSReader.read` on a bucket that is not rapid: always the range
reader, under `gr.mu`, the read type recomputed if the expected offset
moved since the request was classified. -/
def gcsRead (st : Reads) (info : ReadInfo) (offset len : ℕ) : Reads × Except ReadError ReadResult :=
  let c := if info.expectedOffset ≠ st.classifier.expectedOffset then
    (st.classifier.getReadInfo offset info.seekRecorded).1 else st.classifier
  let e := getEndOffset size c offset
  let r := st.rangeReader.readAt size len offset e.2
  (⟨e.1, r.1⟩, r.2)

/-- `ReadManager.ReadAt` with the `GCSReader` as its only reader: classify
the request, read, and record the bytes read. `GCSReader.ReadAt` does not
retry on a bucket that is not rapid. -/
def readAt (st : Reads) (offset len : ℕ) : Reads × Except ReadError ReadResult :=
  if size ≤ offset then (st, .error .eof)
  else if len = 0 then (st, .ok ⟨0, offset⟩)
  else
    let g := st.classifier.getReadInfo offset false
    let r := gcsRead size { st with classifier := g.1 } g.2 offset len
    match r.2 with
    | .ok res => ({ r.1 with classifier := r.1.classifier.recordRead offset res.size }, .ok res)
    | .error err => (r.1, .error err)

/-- A sequence of reads `(offset, len)`, with what each returned. -/
def readAll : Reads → List (ℕ × ℕ) → Reads × List (Except ReadError ReadResult)
  | st, [] => (st, [])
  | st, (offset, len) :: reqs =>
    let r := readAt size st offset len
    let rest := readAll r.1 reqs
    (rest.1, r.2 :: rest.2)

end Read

end Gcsx

end GcsFuse
