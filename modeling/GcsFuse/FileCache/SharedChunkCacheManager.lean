import GcsFuse.Common.LengthPrefix
/-!
# The paths of the shared chunk cache

`internal/cache/file/shared_chunk_cache_manager.go`. Every mount that
shares the cache directory names a chunk of an object generation by the
same path: the SHA-256 of the bucket, object and generation, two prefixes
of it, and the chunk's byte range. What the hash is taken of writes each
name with its length in front (`computeObjectHashInput`);
`GcsFuse.FileCache.SharedChunkFiles` reads it back as one triple.

Paths are lists of names below the root, as `filepath.Join` builds them
from names that hold no separator; the hex digest and the decimal offsets
hold none. `sha256` is the hex digest of the UTF-8 bytes of a string.
-/

namespace GcsFuse

namespace FileCache

open LengthPrefix

/-- `SharedChunkCacheManager`: the fields the paths read. -/
structure SharedChunkCacheManager where
  cacheDir : List String
  chunkSize : ℕ

namespace SharedChunkCacheManager

/-- `NewSharedChunkCacheManager`, of the fields the paths read. -/
def newSharedChunkCacheManager (cacheDir : List String) (sharedCacheChunkSizeMb : ℕ) : SharedChunkCacheManager :=
  ⟨cacheDir, sharedCacheChunkSizeMb * 1024 * 1024⟩

/-- What `computeObjectHash` writes into the hash:
`<bucketNameLength>:<bucketName><objectNameLength>:<objectName>:<generation>`. -/
def computeObjectHashInput (bucketName objectName : String) (generation : ℤ) : String :=
  lengthPrefixed bucketName ++ lengthPrefixed objectName ++ ":" ++ toString generation

variable (sha256 : String → String)

/-- `computeObjectHash`. -/
def computeObjectHash (bucketName objectName : String) (generation : ℤ) : String :=
  sha256 (computeObjectHashInput bucketName objectName generation)

/-- `GetObjectDir`: the cache directory, the first two and the next two
hex digits of the hash, and the hash. -/
def getObjectDir (m : SharedChunkCacheManager) (bucketName objectName : String) (generation : ℤ) : List String :=
  let hash := computeObjectHash sha256 bucketName objectName generation
  m.cacheDir ++ [String.ofList (hash.toList.take 2), String.ofList ((hash.toList.drop 2).take 2), hash]

/-- `GetChunkIndex`, of the offsets `ReadAt` passes, which are not
negative. -/
def getChunkIndex (m : SharedChunkCacheManager) (offset : ℕ) : ℕ := offset / m.chunkSize

/-- The name of a chunk's file: `<start-offset>_<end-offset>.bin`. -/
def chunkFileName (startOffset endOffset : ℕ) : String :=
  toString startOffset ++ "_" ++ toString endOffset ++ ".bin"

/-- `GetChunkPath`. -/
def getChunkPath (m : SharedChunkCacheManager) (bucketName objectName : String) (generation : ℤ)
    (chunkIndex : ℕ) : List String :=
  let startOffset := chunkIndex * m.chunkSize
  let endOffset := startOffset + m.chunkSize
  m.getObjectDir sha256 bucketName objectName generation ++ [chunkFileName startOffset endOffset]

/-- `fmt.Sprintf("%016x", r)`: sixteen lowercase hex digits. -/
def hex16 (r : UInt64) : String :=
  let digits := Nat.toDigits 16 r.toNat
  String.ofList (List.replicate (16 - digits.length) '0' ++ digits)

/-- `GenerateTmpPath`, with `random` what `rand.Uint64` gave: the chunk's
path with `.<random>.tmp` after it. -/
def generateTmpPath (m : SharedChunkCacheManager) (bucketName objectName : String) (generation : ℤ)
    (chunkIndex : ℕ) (random : UInt64) : List String :=
  (m.getChunkPath sha256 bucketName objectName generation chunkIndex).modifyLast
    (· ++ "." ++ hex16 random ++ ".tmp")

end SharedChunkCacheManager

end FileCache

end GcsFuse
