import GcsFuse.Data.FileInfo
import GcsFuse.Gcs.Object
import GcsFuse.Lru.Shape
import GcsFuse.Common.Run
/-!
# Sparse file cache — size accounting across jobs

In sparse mode the `CacheHandler` inserts a `FileInfo` of size 0 for an
object and the object's job downloads chunks on demand. A chunk's
download ends in one critical section under `job.mu`
(`downloadSparseRange`): `AddRange` on the entry's `ByteRangeMap`, which
grows the entry's `Size()` at once, then `UpdateSize(key, bytesAdded)`,
which brings `currentSize` up to it. The `CacheHandler` inserts and
erases under its own lock, so its calls interleave with the two halves.

The state is what these paths share; each step is one of them, atomic
as its locks make it. A step that panics, or that cannot be taken
because its job still holds `job.mu`, is `none`.

An `Insert` that evicts an entry between the two halves subtracts the
grown size, and the `UpdateSize` that follows fails: `currentSize` falls
below the sum of the sizes. `sparse_eviction_race_panics` plays such an
interleaving to the `evictOne` of an empty list.
-/

namespace GcsFuse

namespace FileCache

open Data Gcs Lru ElementList Run

/-- What the `CacheHandler` and its jobs are configured with. -/
structure Config where
  bucketName : String
  isSparse : Bool
  /-- `uint64(jobManager.DownloadChunkSizeMb())`. -/
  downloadChunkSizeMb : UInt64
  volumeBlockSize : UInt64

/-- The shared state: the file-info cache, the `ByteRangeMap`s its
entries point to, and each job inside `downloadSparseRange` between
`AddRange` and `UpdateSize`, with the key and `bytesAdded` it holds. -/
structure State where
  fileInfoCache : Cache FileInfo
  maps : List ByteRangeMap
  pending : List (ℕ × String × UInt64)

/-- `Size()` as the cache reads it in this state. -/
def State.sz (s : State) : FileInfo → UInt64 := FileInfo.size s.maps

/-- The state of a new file cache of `maxSize` bytes. -/
def State.init (maxSize : UInt64) : State := ⟨newCache maxSize, [], []⟩

/-- The steps that interleave. -/
inductive Action
  /-- `addFileInfoEntryAndCreateDownloadJob`; `shouldInvalidate` is what it
  learns from the job manager about an existing entry's job. -/
  | addFileInfoEntry (object : MinObject) (shouldInvalidate : Bool)
  /-- `InvalidateCache`. -/
  | invalidateCache (objectName : String)
  /-- `downloadSparseRange` of `job`, up to and including `AddRange`. -/
  | addRange (job : ℕ) (object : MinObject) (start stop : UInt64)
  /-- `downloadSparseRange` of `job`: its `UpdateSize`. -/
  | updateSize (job : ℕ)

section Steps

variable (cfg : Config)

/-- `FileInfoKey{BucketName, ObjectName}.Key()`. -/
def fileInfoKeyName (objectName : String) : Option String :=
  FileInfoKey.key ⟨cfg.bucketName, zeroTimeUnix, objectName⟩

/-- `NewFileInfo` for a new entry; in sparse mode its `Offset` is the
`MaxUint64` sentinel and a new `ByteRangeMap` is allocated for it. -/
def newFileInfo (maps : List ByteRangeMap) (object : MinObject) : FileInfo × List ByteRangeMap :=
  let fi : FileInfo := ⟨⟨cfg.bucketName, zeroTimeUnix, object.name⟩, object.generation, 0,
    object.size, cfg.isSparse, none, cfg.volumeBlockSize⟩
  if cfg.isSparse then
    ({ fi with offset := 18446744073709551615, downloadedChunks := some maps.length },
      maps ++ [ByteRangeMap.new (cfg.downloadChunkSizeMb * 1024 * 1024) object.size])
  else (fi, maps)

/-- The `addEntryToCache` branch: insert a new `FileInfo`, with the
values the insertion evicted. An error of `Insert` (`none` evicted) leaves
the cache as it was; `none` overall is its panic. -/
def insertFileInfo (s : State) (key : String) (object : MinObject) :
    Option (State × Option (List FileInfo)) :=
  let (fi, maps) := newFileInfo cfg s.maps object
  match insert (FileInfo.size maps) s.fileInfoCache key (some fi) with
  | .error _ => some (s, none)
  | .ok none => none
  | .ok (some (c, evicted)) => some ({ s with fileInfoCache := c, maps := maps }, some evicted)

/-- What `addFileInfoEntryAndCreateDownloadJob` did to the cache, for the
clean-ups and the job creation that follow it: the entry it erased, the
values its insertion evicted if it inserted one, and whether it returns
without error. -/
structure CacheChange where
  erased : Option FileInfo
  inserted : Option (List FileInfo)
  ok : Bool

/-- `addFileInfoEntryAndCreateDownloadJob`, its file-info cache part: a
new entry for an object the cache does not hold or holds at another
generation or with a job that failed; otherwise the entry is moved to the
front. -/
def addFileInfoEntry (s : State) (object : MinObject) (shouldInvalidate : Bool) :
    Option (State × CacheChange) :=
  match fileInfoKeyName cfg object.name with
  | none => some (s, ⟨none, none, false⟩)
  | some key =>
    match lookUpWithoutChangingOrder s.fileInfoCache key with
    | none => (insertFileInfo cfg s key object).map fun r => (r.1, ⟨none, r.2, r.2.isSome⟩)
    | some fi =>
      if fi.objectGeneration ≠ object.generation ∨ shouldInvalidate = true then
        let e := erase s.sz s.fileInfoCache key
        (insertFileInfo cfg { s with fileInfoCache := e.1 } key object).map fun r =>
          (r.1, ⟨e.2, r.2, r.2.isSome⟩)
      else some ({ s with fileInfoCache := (lookUp s.fileInfoCache key).1 }, ⟨none, none, true⟩)

/-- `InvalidateCache`. -/
def invalidateCache (s : State) (objectName : String) : State :=
  match fileInfoKeyName cfg objectName with
  | none => s
  | some key => { s with fileInfoCache := (erase s.sz s.fileInfoCache key).1 }

/-- `downloadSparseRange` up to `AddRange`: with the bytes written, it
re-fetches the entry by key and marks the range on the entry's map. It
returns early, with nothing changed, on an empty range or a missing
entry; a `FileInfo` without a map is a nil dereference. -/
def downloadSparseRangeAddRange (s : State) (job : ℕ) (object : MinObject) (start stop : UInt64) :
    Option State :=
  if (s.pending.lookup job).isSome then none
  else if stop ≤ start then some s
  else
    -- `if end > job.object.Size { end = job.object.Size }`
    let stop := if object.size < stop then object.size else stop
    match fileInfoKeyName cfg object.name with
    | none => some s
    | some key =>
      match lookUpWithoutChangingOrder s.fileInfoCache key with
      | none => some s
      | some fi =>
        match fi.downloadedChunks.bind fun p => s.maps[p]? with
        | none => none
        | some brm =>
          let r := brm.addRange start stop
          some { s with
            maps := s.maps.set (fi.downloadedChunks.getD 0) r.1
            pending := (job, key, r.2) :: s.pending }

/-- `downloadSparseRange`'s `UpdateSize(key, bytesAdded)`, then `job.mu`
is released. An `ErrEntryNotExist` changes nothing. -/
def downloadSparseRangeUpdateSize (s : State) (job : ℕ) : Option State :=
  match s.pending.lookup job with
  | none => none
  | some (key, bytesAdded) =>
    let s' := { s with pending := s.pending.filter fun e => e.1 ≠ job }
    match updateSize s.fileInfoCache key bytesAdded with
    | .error _ => some s'
    | .ok c => some { s' with fileInfoCache := c }

/-- One step of the file cache. -/
def step (s : State) : Action → Option State
  | .addFileInfoEntry object shouldInvalidate =>
    (addFileInfoEntry cfg s object shouldInvalidate).map Prod.fst
  | .invalidateCache objectName => some (invalidateCache cfg s objectName)
  | .addRange job object start stop => downloadSparseRangeAddRange cfg s job object start stop
  | .updateSize job => downloadSparseRangeUpdateSize s job

end Steps

/-- A sparse file cache of 2 MiB in 1 MiB chunks, blocks of one byte. -/
def raceConfig : Config := ⟨"bucket", true, 1, 1⟩

/-- An object of 2 MiB, two chunks. -/
def twoChunkObject (name : String) : MinObject := ⟨name, 1, 2097152⟩

/-- Two jobs download both chunks of `a` and `b`; the `Insert` of `c`
comes between the `AddRange` of `a`'s second chunk and its `UpdateSize`,
and then `b` is invalidated. -/
def evictionRace : List Action :=
  [.addFileInfoEntry (twoChunkObject "a") false, .addFileInfoEntry (twoChunkObject "b") false,
   .addRange 0 (twoChunkObject "a") 0 1048576, .updateSize 0,
   .addRange 1 (twoChunkObject "b") 0 1048576, .updateSize 1,
   .addRange 1 (twoChunkObject "b") 1048576 2097152, .updateSize 1,
   .addRange 0 (twoChunkObject "a") 1048576 2097152,
   .addFileInfoEntry (twoChunkObject "c") false,
   .updateSize 0,
   .invalidateCache "b"]

/-- The `Insert` of `c` evicts `a` at its grown size of 2 MiB, of which
`currentSize` has counted 1 MiB, and `a`'s `UpdateSize` then fails. The
erase of `b` wraps `currentSize` to `2^64 - 2^20` over an entry of size
0, and the next insertion evicts every entry and reads the back of the
empty list. -/
theorem sparse_eviction_race_panics :
    ∃ s, run (step raceConfig) (State.init 2097152) evictionRace = some s ∧
      s.fileInfoCache.currentSize = 18446744073708503040 ∧
      total (weight s.sz) s.fileInfoCache.entries = 0 ∧
      addFileInfoEntry raceConfig s (twoChunkObject "d") false = none :=
  ⟨_, rfl, rfl, rfl, rfl⟩

end FileCache

end GcsFuse
