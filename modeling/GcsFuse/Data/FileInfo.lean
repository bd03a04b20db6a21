import GcsFuse.Lru.Cache
/-!
# The file-info cache's values

`internal/cache/data`: the `FileInfo` the file cache keeps for each
object, its key, and the `ByteRangeMap` that records which chunks of a
sparse file are on disk. A `FileInfo` is a value, copied in and out of the
LRU cache, but its `DownloadedChunks` is a pointer: every copy shares one
`ByteRangeMap`, and `AddRange` on it changes the `Size()` of the entry the
cache holds without the cache seeing a call. The pointer is an index into
the list of maps the system allocated.

A `FileInfoKey`'s key is the bucket's name, the creation time in decimal
and the object's name, with nothing between them: an object of one
bucket and an object of another bucket whose name extends the first by
the time can have one key (`getFileInfoKeyName_shift`), and the handler
gives every key the same zero time (`file_info_keys_collide`).
-/

namespace GcsFuse

namespace Data

/-- `DefaultChunkSize`: 1 MiB. -/
def defaultChunkSize : UInt64 := 1024 * 1024

/-- `ByteRangeMap`. `chunks` lists the chunk IDs the Go map sets to `true`. -/
structure ByteRangeMap where
  chunkSize : UInt64
  fileSize : UInt64
  chunks : List ℕ
  totalBytes : UInt64

namespace ByteRangeMap

/-- `NewByteRangeMap`. -/
def new (chunkSize fileSize : UInt64) : ByteRangeMap :=
  ⟨if chunkSize = 0 then defaultChunkSize else chunkSize, fileSize, [], 0⟩

/-- `chunkID`. -/
def chunkID (brm : ByteRangeMap) (offset : UInt64) : UInt64 := offset / brm.chunkSize

/-- `chunkSizeOf`: the size of a chunk, the last one cut at `fileSize`. -/
def chunkSizeOf (brm : ByteRangeMap) (id : ℕ) : UInt64 :=
  let chunkStart := UInt64.ofNat id * brm.chunkSize
  if brm.fileSize ≤ chunkStart then 0
  else
    let chunkEnd := chunkStart + brm.chunkSize
    if brm.fileSize < chunkEnd then brm.fileSize - chunkStart else brm.chunkSize

/-- The chunk IDs from `startChunk` to `endChunk`, both included, as the
loops of `AddRange`, `ContainsRange` and `GetMissingChunks` visit them. -/
def chunkRange (brm : ByteRangeMap) (start stop : UInt64) : List ℕ :=
  let startChunk := (brm.chunkID start).toNat
  let endChunk := (brm.chunkID (stop - 1)).toNat
  List.range' startChunk (endChunk + 1 - startChunk)

/-- One round of the loop of `AddRange`. -/
def markChunk (brm : ByteRangeMap) (acc : List ℕ × UInt64) (id : ℕ) : List ℕ × UInt64 :=
  if id ∈ acc.1 then acc else (id :: acc.1, acc.2 + brm.chunkSizeOf id)

/-- `AddRange`: mark the chunks of `[start, stop)` and return the bytes
that are new. -/
def addRange (brm : ByteRangeMap) (start stop : UInt64) : ByteRangeMap × UInt64 :=
  if stop ≤ start then (brm, 0)
  else
    let r := (brm.chunkRange start stop).foldl brm.markChunk (brm.chunks, 0)
    ({ brm with chunks := r.1, totalBytes := brm.totalBytes + r.2 }, r.2)

/-- `ContainsRange`. -/
def containsRange (brm : ByteRangeMap) (start stop : UInt64) : Bool :=
  stop ≤ start || (brm.chunkRange start stop).all fun id => id ∈ brm.chunks

/-- `GetMissingChunks`. -/
def getMissingChunks (brm : ByteRangeMap) (start stop : UInt64) : List ℕ :=
  if stop ≤ start then [] else (brm.chunkRange start stop).filter fun id => id ∉ brm.chunks

/-- `Clear`. -/
def clear (brm : ByteRangeMap) : ByteRangeMap := { brm with chunks := [], totalBytes := 0 }

/-- **The bytes `AddRange` reports are the bytes `TotalBytes` grows by**:
the one fact `UpdateSize` accounting rests on. -/
theorem addRange_totalBytes (brm : ByteRangeMap) (start stop : UInt64) :
    (brm.addRange start stop).1.totalBytes = brm.totalBytes + (brm.addRange start stop).2 := by
  unfold addRange
  split
  · simp
  · rfl

end ByteRangeMap

/-- `FileInfoKey`: `BucketCreationTime` as its Unix seconds. -/
structure FileInfoKey where
  bucketName : String
  bucketCreationTime : Int
  objectName : String

/-- `GetFileInfoKeyName`: bucket name, creation time in decimal, object
name; `none` for the error on an empty name. -/
def getFileInfoKeyName (objectName : String) (bucketCreationTime : Int) (bucketName : String) :
    Option String :=
  if bucketName = "" ∨ objectName = "" then none
  else some (bucketName ++ toString bucketCreationTime ++ objectName)

/-- `time.Time{}.Unix()`: the creation time of the `FileInfoKey`s built
without one, as both the `CacheHandler` and the jobs build theirs. -/
def zeroTimeUnix : Int := -62135596800

/-- `FileInfoKey.Key`. -/
def FileInfoKey.key (fik : FileInfoKey) : Option String :=
  getFileInfoKeyName fik.objectName fik.bucketCreationTime fik.bucketName

/-- GCS's rule for a bucket name without dots: 3 to 63 lowercase letters,
digits, dashes and underscores, beginning and ending with a letter or a
digit. The bucket service enforces it; the mount never checks it. -/
def validBucketName (name : String) : Bool :=
  let cs := name.toList
  decide (3 ≤ cs.length ∧ cs.length ≤ 63) &&
    cs.all (fun c => c.isLower || c.isDigit || c = '-' || c = '_') &&
    (cs.head?.all fun c => c.isLower || c.isDigit) && (cs.getLast?.all fun c => c.isLower || c.isDigit)

/-- **The key has no separator**: the object of `bucketName` whose name is
`x`, the creation time and `objectName` has the key of the object
`objectName` of the bucket named `bucketName`, the time and `x`. -/
theorem getFileInfoKeyName_shift {bucketName objectName : String} (hb : bucketName ≠ "")
    (ho : objectName ≠ "") (x : String) (t : Int) :
    getFileInfoKeyName (x ++ toString t ++ objectName) t bucketName =
      getFileInfoKeyName objectName t (bucketName ++ toString t ++ x) := by
  have hb' : bucketName ++ toString t ++ x ≠ "" := by
    simp [hb]
  have ho' : x ++ toString t ++ objectName ≠ "" := by
    simp [ho]
  unfold getFileInfoKeyName
  rw [if_neg (not_or.2 ⟨hb, ho'⟩), if_neg (not_or.2 ⟨hb', ho⟩)]
  simp only [String.append_assoc]

/-- Two valid buckets of one mount, "abc" and "abc-62135596800d", and
their objects "d-62135596800x" and "x": with the zero creation time every
`FileInfoKey` of the handler carries, both keys are
"abc-62135596800d-62135596800x". -/
theorem file_info_keys_collide :
    validBucketName "abc" = true ∧ validBucketName "abc-62135596800d" = true ∧
      FileInfoKey.key ⟨"abc", zeroTimeUnix, "d-62135596800x"⟩ = some "abc-62135596800d-62135596800x" ∧
      FileInfoKey.key ⟨"abc-62135596800d", zeroTimeUnix, "x"⟩ = some "abc-62135596800d-62135596800x" := by
  decide

/-- `FileInfo`, with `DownloadedChunks` a reference into the shared maps. -/
structure FileInfo where
  key : FileInfoKey
  objectGeneration : Int
  offset : UInt64
  fileSize : UInt64
  sparseMode : Bool
  downloadedChunks : Option ℕ
  cacheDirVolumeBlockSize : UInt64

/-- `GetSpeculativeFileSizeOnDisk`: the size rounded up to whole volume
blocks; a block size of 0 or 1 leaves it as it is. -/
def getSpeculativeFileSizeOnDisk (fileContentSize volumeBlockSize : UInt64) : UInt64 :=
  if volumeBlockSize ≤ 1 then fileContentSize
  else (fileContentSize + volumeBlockSize - 1) / volumeBlockSize * volumeBlockSize

namespace FileInfo

/-- `ContentSize`, reading the shared maps: a sparse file counts the bytes
downloaded so far. -/
def contentSize (maps : List ByteRangeMap) (fi : FileInfo) : UInt64 :=
  match fi.sparseMode, fi.downloadedChunks.bind fun p => maps[p]? with
  | true, some brm => brm.totalBytes
  | _, _ => fi.fileSize

/-- `Size`, the value the LRU cache accounts. -/
def size (maps : List ByteRangeMap) (fi : FileInfo) : UInt64 :=
  getSpeculativeFileSizeOnDisk (fi.contentSize maps) fi.cacheDirVolumeBlockSize

end FileInfo

end Data

end GcsFuse
