import Mathlib.Data.List.Basic
import Mathlib.Algebra.Order.Ring.Int
/-!
# cfg.Config — the mount configuration

`cfg/config.go` declares `Config`, generated from `cfg/params.yaml`, with
one nested record per section. The model keeps the fields the modelled
functions read or write, `ApplyOptimizations` and `Rationalize`; the
fields only `ValidateConfig` reads (the cache's regexes, the read-stall
retries, log rotation, the metrics buffer and Prometheus port, the MRD
pool size and the trace sampling ratio) are left out, as `ValidateConfig`
is. An `int64` is an `Int` (the decoded values are in range, and the
functions only compare them and store constants), and a `time.Duration`
an `Int` of nanoseconds.

What the configuration code calls outside the repository is a parameter:
viper's record of what the user set (`Viper`), and the library functions
it applies to strings (`Lib`).
-/

namespace GcsFuse

namespace Cfg

/-- The calls of `*viper.Viper` the configuration code makes: whether the
user set a key, by flag or in the config file, and its value as a
string. -/
structure Viper where
  isSet : String → Bool
  getString : String → String

/-- The library functions the configuration code calls on strings:
`url.Parse` followed by `URL.String` (an error, or the re-encoded URL),
`strings.ToLower` and `strings.TrimSpace`. -/
structure Lib where
  parseURL : String → Except String String
  toLower : String → String
  trimSpace : String → String

/-! ## The sections of `Config` -/

/-- `DebugConfig`. -/
structure DebugConfig where
  fuse : Bool
  gcs : Bool
  logMutex : Bool

/-- `FileCacheConfig`. -/
@[ext] structure FileCacheConfig where
  cacheFileForRangeRead : Bool
  downloadChunkSizeMb : Int
  enableParallelDownloads : Bool
  maxParallelDownloads : Int
  maxSizeMb : Int
  parallelDownloadsPerFile : Int
  writeBufferSize : Int

/-- `FileSystemConfig`. -/
structure FileSystemConfig where
  congestionThreshold : Int
  enableKernelReader : Bool
  kernelListCacheTtlSecs : Int
  maxBackground : Int
  maxReadAheadKb : Int
  renameDirLimit : Int

/-- `GcsAuthConfig`. -/
@[ext] structure GcsAuthConfig where
  tokenUrl : String

/-- `GcsConnectionConfig`. -/
@[ext] structure GcsConnectionConfig where
  customEndpoint : String
  sequentialReadSizeMb : Int

/-- `GcsRetriesConfig`. -/
@[ext] structure GcsRetriesConfig where
  chunkRetryDeadlineSecs : Int
  chunkTransferTimeoutSecs : Int
  maxRetryAttempts : Int

/-- `LoggingConfig`; `severity` is a `LogSeverity`, a string. -/
@[ext] structure LoggingConfig where
  format : String
  severity : String

/-- `MetadataCacheConfig`; the two deprecated TTLs are durations. -/
@[ext] structure MetadataCacheConfig where
  deprecatedStatCacheCapacity : Int
  deprecatedStatCacheTtl : Int
  deprecatedTypeCacheTtl : Int
  experimentalMetadataPrefetchOnMount : String
  metadataPrefetchEntriesLimit : Int
  metadataPrefetchMaxWorkers : Int
  negativeTtlSecs : Int
  statCacheMaxSizeMb : Int
  ttlSecs : Int
  typeCacheMaxSizeMb : Int

/-- `MetricsConfig`; `stackdriverExportInterval` is a duration. -/
@[ext] structure MetricsConfig where
  cloudMetricsExportIntervalSecs : Int
  stackdriverExportInterval : Int
  workers : Int

/-- `ReadConfig`. -/
@[ext] structure ReadConfig where
  blockSizeMb : Int
  enableBufferedRead : Bool
  globalMaxBlocks : Int
  maxBlocksPerHandle : Int
  minBlocksPerHandle : Int
  startBlocksPerHandle : Int

/-- `TraceConfig`. -/
@[ext] structure TraceConfig where
  exporters : List String

/-- `WriteConfig`. -/
@[ext] structure WriteConfig where
  blockSizeMb : Int
  createEmptyFile : Bool
  enableStreamingWrites : Bool
  finalizeFileOnClose : Bool
  globalMaxBlocks : Int
  maxBlocksPerFile : Int

/-- `Config`; `cacheDir` is a `ResolvedPath`, a string. -/
@[ext] structure Config where
  cacheDir : String
  debug : DebugConfig
  disableAutoconfig : Bool
  fileCache : FileCacheConfig
  fileSystem : FileSystemConfig
  gcsAuth : GcsAuthConfig
  gcsConnection : GcsConnectionConfig
  gcsRetries : GcsRetriesConfig
  implicitDirs : Bool
  logging : LoggingConfig
  machineType : String
  metadataCache : MetadataCacheConfig
  metrics : MetricsConfig
  profile : String
  read : ReadConfig
  trace : TraceConfig
  write : WriteConfig

/-! ## Constants -/

/-- `math.MaxInt64`, also `math.MaxInt` on the 64-bit targets. -/
def maxInt64 : Int := 9223372036854775807

/-- `math.MaxInt32`. -/
def maxInt32 : Int := 2147483647

/-- `math.MaxInt16`. -/
def maxInt16 : Int := 32767

/-- `maxSupportedTTLInSeconds`: `math.MaxInt64 / int64(time.Second)`. -/
def maxSupportedTTLInSeconds : Int := maxInt64 / 1000000000

/-- `util.MaxMiBsInUint64`: `math.MaxUint64 >> 20`. -/
def maxMiBsInUint64 : ℕ := (2 ^ 64 - 1) / 2 ^ 20

/-- `maxSupportedStatCacheMaxSizeMB`. -/
def maxSupportedStatCacheMaxSizeMB : ℕ := maxMiBsInUint64

/-- `AverageSizeOfPositiveStatCacheEntry`, in bytes. -/
def averageSizeOfPositiveStatCacheEntry : ℕ := 1464

/-- `AverageSizeOfNegativeStatCacheEntry`, in bytes. -/
def averageSizeOfNegativeStatCacheEntry : ℕ := 256

/-- `logFormatText`. -/
def logFormatText : String := "text"

/-- `logFormatJSON`. -/
def logFormatJSON : String := "json"

/-- `defaultLogFormat`. -/
def defaultLogFormat : String := logFormatJSON

/-- `MetadataCacheTTLConfigKey`. -/
def metadataCacheTTLConfigKey : String := "metadata-cache.ttl-secs"

/-- `MetadataCacheStatCacheTTLConfigKey`. -/
def metadataCacheStatCacheTTLConfigKey : String := "metadata-cache.deprecated-stat-cache-ttl"

/-- `MetadataCacheTypeCacheTTLConfigKey`. -/
def metadataCacheTypeCacheTTLConfigKey : String := "metadata-cache.deprecated-type-cache-ttl"

/-- `MetadataCacheStatCacheCapacityConfigKey`. -/
def metadataCacheStatCacheCapacityConfigKey : String := "metadata-cache.deprecated-stat-cache-capacity"

/-- `MetadataNegativeCacheTTLConfigKey`. -/
def metadataNegativeCacheTTLConfigKey : String := "metadata-cache.negative-ttl-secs"

/-- `StatCacheMaxSizeConfigKey`. -/
def statCacheMaxSizeConfigKey : String := "metadata-cache.stat-cache-max-size-mb"

/-- `FileCacheParallelDownloadsConfigKey`. -/
def fileCacheParallelDownloadsConfigKey : String := "file-cache.enable-parallel-downloads"

/-! ## `config_util.go` -/

/-- `maxBackgroundLimit`. -/
def maxBackgroundLimit : ℕ := 192

/-- `DefaultMaxBackground`, for `runtime.NumCPU()` CPUs. -/
def defaultMaxBackground (numCPU : ℕ) : ℕ := min (max 12 (2 * numCPU)) maxBackgroundLimit

/-- `DefaultCongestionThreshold`: 75 % of `DefaultMaxBackground`. -/
def defaultCongestionThreshold (numCPU : ℕ) : ℕ := 3 * defaultMaxBackground numCPU / 4

/-- `DefaultMaxParallelDownloads`. -/
def defaultMaxParallelDownloads (numCPU : ℕ) : ℕ := max 16 (2 * numCPU)

/-- `IsFileCacheEnabled`. -/
def isFileCacheEnabled (c : Config) : Bool := c.fileCache.maxSizeMb != 0 && c.cacheDir != ""

/-- `IsParallelDownloadsEnabled`. -/
def isParallelDownloadsEnabled (c : Config) : Bool :=
  isFileCacheEnabled c && c.fileCache.enableParallelDownloads

/-! ## Defaults -/

/-- The configuration of a mount that sets nothing: the `default` of each
field in `params.yaml`, on a machine of `numCPU` CPUs. Durations are in
nanoseconds. -/
def defaultConfig (numCPU : ℕ) : Config where
  cacheDir := ""
  debug := ⟨false, false, false⟩
  disableAutoconfig := false
  fileCache :=
    { cacheFileForRangeRead := false, downloadChunkSizeMb := 200, enableParallelDownloads := false,
      maxParallelDownloads := defaultMaxParallelDownloads numCPU,
      maxSizeMb := -1, parallelDownloadsPerFile := 16, writeBufferSize := 4194304 }
  fileSystem :=
    { congestionThreshold := 0, enableKernelReader := false, kernelListCacheTtlSecs := 0,
      maxBackground := 0, maxReadAheadKb := 0, renameDirLimit := 0 }
  gcsAuth := ⟨""⟩
  gcsConnection := ⟨"", 200⟩
  gcsRetries :=
    { chunkRetryDeadlineSecs := 120, chunkTransferTimeoutSecs := 10, maxRetryAttempts := 0 }
  implicitDirs := false
  logging := ⟨"json", "info"⟩
  machineType := ""
  metadataCache :=
    { deprecatedStatCacheCapacity := 20460, deprecatedStatCacheTtl := 60000000000,
      deprecatedTypeCacheTtl := 60000000000, experimentalMetadataPrefetchOnMount := "disabled",
      metadataPrefetchEntriesLimit := 5000, metadataPrefetchMaxWorkers := 10, negativeTtlSecs := 5,
      statCacheMaxSizeMb := 34, ttlSecs := 60, typeCacheMaxSizeMb := 4 }
  metrics :=
    { cloudMetricsExportIntervalSecs := 0, stackdriverExportInterval := 0, workers := 3 }
  profile := ""
  read :=
    { blockSizeMb := 16, enableBufferedRead := false, globalMaxBlocks := 40, maxBlocksPerHandle := 20,
      minBlocksPerHandle := 4, startBlocksPerHandle := 1 }
  trace := ⟨["gcpexporter"]⟩
  write :=
    { blockSizeMb := 32, createEmptyFile := false, enableStreamingWrites := true,
      finalizeFileOnClose := false, globalMaxBlocks := 4, maxBlocksPerFile := 1 }

end Cfg

end GcsFuse
