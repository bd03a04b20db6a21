import GcsFuse.FileCache.Sparse
/-!
# File cache — handles, cache files and sparse reads

`internal/cache/file/cache_handler.go`, `cache_handle.go` and the sparse
path of `downloader/sparse_downloads_job.go`. The `CacheHandler` keeps one
cache file per object, at a path made of the bucket and the object name:
every generation of an object is cached at the same path. `GetCacheHandle`
adds the object's `FileInfo` — erasing one of another generation — and
cleans up what it erased or evicted (the job is invalidated, the file
truncated and removed), creates the job, and opens the cache file for
reading. A `CacheHandle.Read` in sparse mode asks the job whether the
range is downloaded. If it is not, the job downloads the missing chunks,
each with `downloadSparseRange`: it reads the job's generation from the
bucket, opens the file at the object's path, writes the bytes there, and
then marks the range on the `FileInfo` it finds under the object's key.
Once the range is marked the read is served from the handle's file, if
the entry under the key still has the reader's generation.

The state is the sparse file-info cache of `FileCache.Sparse`, the cache
directory, the jobs, the handles and the downloads in flight; each step is
one critical section or one step of a download goroutine, and `served`
records what every successful read returned.

Nothing ties a download to the file or the entry of its own generation:
`stale_download_served` plays a download of generation 1 that writes into
the file re-created for generation 2 and marks the range on that
generation's entry, and a reader of generation 2 is served the bytes of
generation 1.
-/

namespace GcsFuse

namespace FileCache

open Data Gcs Lru Run

/-- The cache directory: the contents of every file it held, and the file
now at each object's path, as an index into `inodes`. The path is
`GetDownloadPath(cacheDir, GetObjectPath(bucket, object))`; with one
bucket, the object name. -/
structure Files where
  inodes : List (List UInt8)
  paths : AList (fun _ : String => ℕ)

namespace Files

/-- `CreateFile`: open the file at the path, created empty if missing. -/
def createFile (fs : Files) (path : String) : Files × ℕ :=
  match fs.paths.lookup path with
  | some i => (fs, i)
  | none => (⟨fs.inodes ++ [[]], fs.paths.insert path fs.inodes.length⟩, fs.inodes.length)

/-- `TruncateAndRemoveFile`: the file is truncated to 0 and unlinked; the
handles open on it keep the empty file. A missing file is no error for
`cleanUpEvictedFile`. -/
def truncateAndRemoveFile (fs : Files) (path : String) : Files :=
  match fs.paths.lookup path with
  | some i => ⟨fs.inodes.set i [], fs.paths.erase path⟩
  | none => fs

/-- A write at `offset` through `io.OffsetWriter`; a write past the end
leaves a hole of zeros. -/
def writeAt (contents : List UInt8) (offset : ℕ) (bytes : List UInt8) : List UInt8 :=
  contents.take offset ++ List.replicate (offset - contents.length) 0 ++ bytes ++
    contents.drop (offset + bytes.length)

/-- `ReadAt` into a buffer of `len` bytes; fewer at the end of the file,
with `io.EOF`. -/
def readAt (contents : List UInt8) (offset len : ℕ) : List UInt8 := (contents.drop offset).take len

end Files

namespace Handler

/-- A download job in sparse mode: the object it was created for, and
whether it was invalidated. It runs no goroutine of its own. -/
structure SparseJob where
  object : MinObject
  invalid : Bool

/-- `CacheHandle`: the cache file it opened, the job `GetJob` gave it, and
the object of the reader that holds it. -/
structure CacheHandle where
  fileHandle : ℕ
  fileDownloadJob : Option ℕ
  object : MinObject

/-- A `downloadSparseRange` in flight: its job, its chunk, and whether
its bytes are written. -/
structure Download where
  job : ℕ
  chunkID : ℕ
  written : Bool

/-- The file cache of one bucket: the sparse file-info cache, the cache
directory, the jobs and `jm.jobs` (by object), the handles, the downloads
in flight, and the `(handle, offset, bytes)` of every read served. -/
structure System where
  cache : State
  files : Files
  jobs : List SparseJob
  jobManager : AList (fun _ : String => ℕ)
  handles : List CacheHandle
  downloads : List Download
  served : List (ℕ × ℕ × List UInt8)

/-- A new file cache of `maxSize` bytes. -/
def System.init (maxSize : UInt64) : System := ⟨State.init maxSize, ⟨[], ∅⟩, [], ∅, [], [], []⟩

/-- The calls on the file cache and the steps of the downloads. -/
inductive Action
  /-- `GetCacheHandle` for a reader of `object`. -/
  | getCacheHandle (object : MinObject)
  /-- `CacheHandle.Read` of a handle at `offset` into a buffer of `len`. -/
  | read (h offset len : ℕ)
  /-- `downloadSparseRange` of a download, up to `io.CopyN`. -/
  | sparseWrite (d : ℕ)
  /-- `downloadSparseRange` of a download, its `AddRange`. -/
  | sparseAddRange (d : ℕ)
  /-- `downloadSparseRange` of a job, its `UpdateSize`. -/
  | updateSize (job : ℕ)
  /-- `InvalidateCache`. -/
  | invalidateCache (objectName : String)

section Steps

variable (cfg : Config)

/-- `InvalidateAndRemoveJob`: `Invalidate` marks the object's job invalid
and its callback removes it from the job manager. -/
def invalidateAndRemoveJob (sys : System) (objectName : String) : System :=
  match sys.jobManager.lookup objectName with
  | none => sys
  | some j =>
    { sys with
      jobs := sys.jobs.modify j fun job => { job with invalid := true }
      jobManager := sys.jobManager.erase objectName }

/-- `cleanUpEvictedFile`. The key of a stored entry is well formed. -/
def cleanUpEvictedFile (sys : System) (fileInfo : FileInfo) : System :=
  let sys := invalidateAndRemoveJob sys fileInfo.key.objectName
  { sys with files := sys.files.truncateAndRemoveFile fileInfo.key.objectName }

/-- `CreateJobIfNotExists`. -/
def createJobIfNotExists (sys : System) (object : MinObject) : System :=
  match sys.jobManager.lookup object.name with
  | some _ => sys
  | none =>
    { sys with
      jobs := sys.jobs ++ [⟨object, false⟩]
      jobManager := sys.jobManager.insert object.name sys.jobs.length }

/-- `shouldInvalidate`: with no job, an entry short of its size; with one,
a job that failed or was invalidated. -/
def shouldInvalidate (sys : System) (objectName : String) (fileInfoData : FileInfo) : Bool :=
  match (sys.jobManager.lookup objectName).bind fun j => sys.jobs[j]? with
  | none => decide (fileInfoData.offset < fileInfoData.fileSize)
  | some existingJob => existingJob.invalid

/-- `addFileInfoEntryAndCreateDownloadJob`, and whether it returns without
error; `none` is a panic of `Insert`. The cache part is
`FileCache.addFileInfoEntry`; the erased entry's clean-up touches only
the jobs and the files, so it commutes with the insertion. -/
def addFileInfoEntryAndCreateDownloadJob (sys : System) (object : MinObject) :
    Option (System × Bool) :=
  let existing := (fileInfoKeyName cfg object.name).bind
    (lookUpWithoutChangingOrder sys.cache.fileInfoCache)
  -- `os.Stat` of an existing entry's file: `ErrFileNotPresentInCache`
  if existing.isSome ∧ sys.files.paths.lookup object.name = none then some (sys, false)
  else
    let si := existing.elim false (shouldInvalidate sys object.name)
    (addFileInfoEntry cfg sys.cache object si).map fun r =>
      let sys := r.2.erased.elim { sys with cache := r.1 } (cleanUpEvictedFile { sys with cache := r.1 })
      match r.2.inserted with
      | none => (sys, r.2.ok)
      | some evicted => (evicted.foldl cleanUpEvictedFile (createJobIfNotExists sys object), true)

/-- `GetCacheHandle` in sparse mode, which makes handles for random reads
too: add the entry, then open the cache file for reading. -/
def getCacheHandle (sys : System) (object : MinObject) : Option System :=
  (addFileInfoEntryAndCreateDownloadJob cfg sys object).map fun r =>
    if r.2 then
      let f := r.1.files.createFile object.name
      { r.1 with
        files := f.1
        handles := r.1.handles ++ [⟨f.2, r.1.jobManager.lookup object.name, object⟩] }
    else r.1

/-- `InvalidateCache`: erase the entry and clean it up. -/
def invalidateCache (sys : System) (objectName : String) : System :=
  match fileInfoKeyName cfg objectName with
  | none => sys
  | some key =>
    let e := erase sys.cache.sz sys.cache.fileInfoCache key
    let sys := { sys with cache := { sys.cache with fileInfoCache := e.1 } }
    e.2.elim sys (cleanUpEvictedFile sys)

/-- The chunk size of the jobs' `ByteRangeMap`s and downloads. -/
def chunkSize : UInt64 := cfg.downloadChunkSizeMb * 1024 * 1024

/-- `getChunksToDownload`: the chunks of the range the map misses and no
download of the job has in flight, now in flight. -/
def getChunksToDownload (sys : System) (job : ℕ) (brm : ByteRangeMap) (startOffset endOffset : ℕ) :
    System :=
  let chunks := (brm.getMissingChunks (UInt64.ofNat startOffset) (UInt64.ofNat endOffset)).filter
    fun c => !sys.downloads.any fun d => d.job = job ∧ d.chunkID = c
  { sys with downloads := sys.downloads ++ chunks.map fun c => ⟨job, c, false⟩ }

/-- The end of `Read` once the range is downloaded: `ReadAt` on the
handle's file, where `io.EOF` is accepted only at the end of the object,
then `validateEntryInFileInfoCache` under `LookUp`: the entry must have
the reader's generation and an offset at least `requiredOffset`. -/
def readFromFile (sys : System) (h : ℕ) (fch : CacheHandle) (key : String)
    (offset requiredOffset len : ℕ) : System :=
  let dst := Files.readAt ((sys.files.inodes[fch.fileHandle]?).getD []) offset len
  if dst.length < len ∧ dst.length ≠ requiredOffset - offset then sys
  else
    let l := lookUp sys.cache.fileInfoCache key
    let sys := { sys with cache := { sys.cache with fileInfoCache := l.1 } }
    match l.2 with
    | none => sys
    | some fileInfoData =>
      if fileInfoData.objectGeneration ≠ fch.object.generation ∨
          fileInfoData.offset.toNat < requiredOffset then sys
      else { sys with served := sys.served ++ [(h, offset, dst)] }

/-- `HandleSparseRead` of the handle's job: the range is served from the
file if the `FileInfo` under the job's key has it; otherwise its missing
chunks are downloaded, and the read waits for them and ends as a later
`read` that finds them (`verifySparseRangeDownloaded`). A `FileInfo`
without a map is a nil dereference. -/
def handleSparseRead (sys : System) (h : ℕ) (fch : CacheHandle) (key : String) (job : ℕ)
    (offset requiredOffset len : ℕ) : Option System :=
  match (sys.jobs[job]?).bind fun j =>
      (fileInfoKeyName cfg j.object.name).bind (lookUpWithoutChangingOrder sys.cache.fileInfoCache) with
  | none => some sys
  | some fileInfo =>
    match fileInfo.downloadedChunks.bind fun p => sys.cache.maps[p]? with
    | none => none
    | some brm =>
      if brm.containsRange (UInt64.ofNat offset) (UInt64.ofNat requiredOffset) then
        some (readFromFile sys h fch key offset requiredOffset len)
      else some (getChunksToDownload sys job brm offset requiredOffset)

/-- `CacheHandle.Read` of handle `h`. An offset past the object or a
missing entry is an error; a sparse entry is read through the job, and a
handle without a job is a nil dereference. The non-sparse path is the
download job's (`Downloader.Job`) and is not taken here. -/
def read (sys : System) (h offset len : ℕ) : Option System :=
  match sys.handles[h]? with
  | none => none
  | some fch =>
    if fch.object.size.toNat ≤ offset then some sys
    else
      match fileInfoKeyName cfg fch.object.name with
      | none => some sys
      | some key =>
        match lookUpWithoutChangingOrder sys.cache.fileInfoCache key with
        | none => some sys
        | some fileInfoData =>
          -- the buffer may reach past the object
          let requiredOffset := min (offset + len) fch.object.size.toNat
          if fileInfoData.sparseMode then
            match fch.fileDownloadJob with
            | none => none
            | some job => handleSparseRead cfg sys h fch key job offset requiredOffset len
          else some sys

section Downloads

-- the bytes of each object generation, as the bucket serves them
variable (content : String → Int → List UInt8)

/-- `downloadSparseRange` of download `d` up to `io.CopyN`: the chunk of
the job's generation, cut at the object's end, read from the bucket and
written into the file now at the object's path. Without a file there the
download fails and ends. -/
def sparseWrite (sys : System) (d : ℕ) : Option System :=
  match sys.downloads[d]? with
  | none => none
  | some dl =>
    if dl.written then none
    else
      match sys.jobs[dl.job]? with
      | none => none
      | some job =>
        let start := dl.chunkID * (chunkSize cfg).toNat
        let stop := min (start + (chunkSize cfg).toNat) job.object.size.toNat
        match sys.files.paths.lookup job.object.name with
        | none => some { sys with downloads := sys.downloads.eraseIdx d }
        | some i =>
          let bytes := ((content job.object.name job.object.generation).drop start).take (stop - start)
          some { sys with
            files := { sys.files with inodes := sys.files.inodes.modify i fun c => Files.writeAt c start bytes }
            downloads := sys.downloads.set d { dl with written := true } }

end Downloads

/-- `downloadSparseRange` of download `d` under `job.mu`: `AddRange` on
the `FileInfo` now under the object's key (`downloadSparseRangeAddRange`);
the chunk is then no longer in flight. -/
def sparseAddRange (sys : System) (d : ℕ) : Option System :=
  match sys.downloads[d]? with
  | none => none
  | some dl =>
    if dl.written then
      match sys.jobs[dl.job]? with
      | none => none
      | some job =>
        let start := UInt64.ofNat dl.chunkID * chunkSize cfg
        (downloadSparseRangeAddRange cfg sys.cache dl.job job.object start (start + chunkSize cfg)).map
          fun c => { sys with cache := c, downloads := sys.downloads.eraseIdx d }
    else none

/-- One step of the file cache. -/
def step (content : String → Int → List UInt8) (sys : System) : Action → Option System
  | .getCacheHandle object => getCacheHandle cfg sys object
  | .read h offset len => read cfg sys h offset len
  | .sparseWrite d => sparseWrite cfg content sys d
  | .sparseAddRange d => sparseAddRange cfg sys d
  | .updateSize job => (downloadSparseRangeUpdateSize sys.cache job).map fun c => { sys with cache := c }
  | .invalidateCache objectName => some (invalidateCache cfg sys objectName)

end Steps

/-- Each generation of an object is four bytes, each its generation. -/
def fourByteGenerations (_ : String) (generation : Int) : List UInt8 :=
  List.replicate 4 (UInt8.ofNat generation.toNat)

/-- A reader of generation 1 of `o` misses and starts the download of
chunk 0; before the download writes, a reader of generation 2 opens a
handle, which erases the entry of generation 1, removes its file and job,
and creates the file, the entry and the job of generation 2; the
download then writes and marks its chunk; the reader of generation 2
reads. -/
def staleDownload : List Action :=
  [.getCacheHandle ⟨"o", 1, 4⟩, .read 0 0 4,
   .getCacheHandle ⟨"o", 2, 4⟩,
   .sparseWrite 0, .sparseAddRange 0, .updateSize 0,
   .read 1 0 4]

/-- The download of generation 1 opens the file by path, so it writes into
the file of generation 2, and `AddRange` marks the chunk on the entry it
finds under the key, that of generation 2: the read of generation 2
passes every check and returns the bytes of generation 1. -/
theorem stale_download_served :
    ∃ sys, run (step raceConfig fourByteGenerations) (System.init 2097152) staleDownload = some sys ∧
      (sys.handles[1]?).map (·.object) = some ⟨"o", 2, 4⟩ ∧
      sys.served = [(1, 0, fourByteGenerations "o" 1)] ∧
      fourByteGenerations "o" 1 ≠ fourByteGenerations "o" 2 :=
  ⟨_, rfl, rfl, rfl, by decide⟩

end Handler

end FileCache

end GcsFuse
