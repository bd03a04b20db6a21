import GcsFuse.Cfg.Config
/-!
# cfg.Rationalize — the config, resolved

`cfg/rationalize.go`. `Rationalize` fills in the fields that follow from
others: the `-1` that stands for "no limit" becomes the largest value
the consumer takes, the metadata-cache TTL and the stat-cache size come
from the deprecated flags unless an explicit setting or an optimization
decides them, parallel downloads come on with the file cache, and the
file cache turns buffered reads off.

Go mutates the config in place and returns an error only when a URL does
not parse; the model returns the config as `Rationalize` leaves it,
which on that error has the URL field emptied, with the error.

`internal/fs/fs.go` calls `Rationalize` a second time and counts on it
being idempotent. `rationalize_idempotent` proves that for the same
settings and the same optimized flags; `Cfg.Mount` shows what the second
call changes when the flags differ.
-/

namespace GcsFuse

namespace Cfg

/-! ## Go's arithmetic -/

/-- `time.Duration.Seconds`: the whole seconds plus the nanoseconds over
`1e9`, in `float64`; Go's `/` and `%` truncate toward zero. -/
def durationSeconds (d : Int) : Float :=
  Float.ofInt (d.tdiv 1000000000) + Float.ofInt (d.tmod 1000000000) / 1000000000

/-- `math.Min`, on the finite values `Seconds` gives (it differs only on
signed zeros, which `math.Ceil` maps alike). -/
def mathMin (x y : Float) : Float := if x ≤ y then x else y

/-- `int64(f)` of a float, truncating toward zero. -/
def floatToInt64 (f : Float) : Int := f.toInt64.toInt

/-- `util.BytesToHigherMiBs`. -/
def bytesToHigherMiBs (bytes : ℕ) : ℕ :=
  if bytes > maxMiBsInUint64 * 2 ^ 20 then maxMiBsInUint64 + 1 else (bytes + 2 ^ 20 - 1) / 2 ^ 20

/-- `isFlagPresent`. -/
def isFlagPresent (flags : List String) (flag : String) : Bool := flags.contains flag

/-! ## The resolvers -/

/-- `decodeURL`: `url.Parse`, then `String`; `""` with the error. -/
def decodeURL (lib : Lib) (u : String) : Except String String := lib.parseURL u

section Resolve

variable (lib : Lib) (v : Viper) (optimizedFlags : List String)

/-- `resolveMetadataCacheConfig`. The TTL: an explicit setting first,
then the deprecated stat and type TTLs when set or when no optimization
chose the TTL, then the `-1` an optimization or the default may hold. -/
def resolveMetadataCacheConfig (c : MetadataCacheConfig) : MetadataCacheConfig :=
  let optimizationAppliedToNegativeCacheTTL := isFlagPresent optimizedFlags metadataNegativeCacheTTLConfigKey
  let c :=
    if v.isSet metadataNegativeCacheTTLConfigKey || optimizationAppliedToNegativeCacheTTL then
      if c.negativeTtlSecs = -1 then { c with negativeTtlSecs := maxSupportedTTLInSeconds } else c
    else c
  let optimizationAppliedToMetadataCacheTTL := isFlagPresent optimizedFlags metadataCacheTTLConfigKey
  let c :=
    if v.isSet metadataCacheTTLConfigKey then
      if c.ttlSecs = -1 then { c with ttlSecs := maxSupportedTTLInSeconds } else c
    else if (v.isSet metadataCacheStatCacheTTLConfigKey || v.isSet metadataCacheTypeCacheTTLConfigKey) ||
        !optimizationAppliedToMetadataCacheTTL then
      { c with
        ttlSecs := floatToInt64 (mathMin (durationSeconds c.deprecatedStatCacheTtl)
          (durationSeconds c.deprecatedTypeCacheTtl)).ceil }
    else if c.ttlSecs = -1 then { c with ttlSecs := maxSupportedTTLInSeconds }
    else c
  let c :=
    if c.metadataPrefetchMaxWorkers = -1 then { c with metadataPrefetchMaxWorkers := maxInt64 } else c
  if c.metadataPrefetchEntriesLimit = -1 then { c with metadataPrefetchEntriesLimit := maxInt64 } else c

/-- The local `calculateSizeFromCapacity` of `resolveStatCacheMaxSizeMB`:
`uint64(capacity)` times the average entry size, in `uint64`. -/
def calculateSizeFromCapacity (capacity : Int) : Int :=
  bytesToHigherMiBs ((capacity % 2 ^ 64).toNat *
    (averageSizeOfPositiveStatCacheEntry + averageSizeOfNegativeStatCacheEntry) % 2 ^ 64)

/-- `resolveStatCacheMaxSizeMB`. The size: an explicit setting first, then
the deprecated capacity when set or when no optimization chose the size,
then the `-1` an optimization may hold. -/
def resolveStatCacheMaxSizeMB (c : MetadataCacheConfig) : MetadataCacheConfig :=
  let optimizationAppliedToStatCacheMaxSize := isFlagPresent optimizedFlags statCacheMaxSizeConfigKey
  if v.isSet statCacheMaxSizeConfigKey then
    if c.statCacheMaxSizeMb = -1 then { c with statCacheMaxSizeMb := maxSupportedStatCacheMaxSizeMB } else c
  else if v.isSet metadataCacheStatCacheCapacityConfigKey || !optimizationAppliedToStatCacheMaxSize then
    { c with statCacheMaxSizeMb := calculateSizeFromCapacity c.deprecatedStatCacheCapacity }
  else if c.statCacheMaxSizeMb = -1 then { c with statCacheMaxSizeMb := maxSupportedStatCacheMaxSizeMB }
  else c

/-- `resolveStreamingWriteConfig`. -/
def resolveStreamingWriteConfig (w : WriteConfig) : WriteConfig :=
  let w := if w.enableStreamingWrites then { w with createEmptyFile := false } else w
  let w := if w.globalMaxBlocks = -1 then { w with globalMaxBlocks := maxInt64 } else w
  if w.maxBlocksPerFile = -1 then { w with maxBlocksPerFile := maxInt16 } else w

/-- `resolveCloudMetricsUploadIntervalSecs`. -/
def resolveCloudMetricsUploadIntervalSecs (m : MetricsConfig) : MetricsConfig :=
  if m.cloudMetricsExportIntervalSecs = 0 then
    { m with cloudMetricsExportIntervalSecs := floatToInt64 (durationSeconds m.stackdriverExportInterval) }
  else m

/-- `resolveParallelDownloadsValue`: `fc` is `c`'s own file-cache section. -/
def resolveParallelDownloadsValue (fc : FileCacheConfig) (c : Config) : FileCacheConfig :=
  if isFileCacheEnabled c && !v.isSet fileCacheParallelDownloadsConfigKey then
    { fc with enableParallelDownloads := true }
  else fc

/-- `resolveFileCacheAndBufferedReadConflict`; the settings it reads decide
only whether a warning is logged. -/
def resolveFileCacheAndBufferedReadConflict (c : Config) : Config :=
  if isFileCacheEnabled c && c.read.enableBufferedRead then { c with read.enableBufferedRead := false }
  else c

/-- `resolveReadConfig`. -/
def resolveReadConfig (r : ReadConfig) : ReadConfig :=
  if r.globalMaxBlocks = -1 then { r with globalMaxBlocks := maxInt32 } else r

/-- `resolveLoggingConfig`; an unsupported format is logged and replaced. -/
def resolveLoggingConfig (config : Config) : Config :=
  let config :=
    if config.debug.fuse || config.debug.gcs || config.debug.logMutex then
      { config with logging.severity := "TRACE" }
    else config
  let config := { config with logging.format := lib.toLower config.logging.format }
  if [logFormatText, logFormatJSON].contains config.logging.format then config
  else { config with logging.format := defaultLogFormat }

/-- `resolveTraceConfig`. -/
def resolveTraceConfig (t : TraceConfig) : TraceConfig :=
  { t with exporters := t.exporters.map fun s => lib.toLower (lib.trimSpace s) }

/-- `resolveGCSRetriesConfig`. -/
def resolveGCSRetriesConfig (c : GcsRetriesConfig) : GcsRetriesConfig :=
  if c.maxRetryAttempts = 0 then { c with maxRetryAttempts := maxInt64 } else c

/-- `Rationalize`: the two URLs, then each resolver in the source's order.
The config as `Rationalize` leaves it, and the error it returns. -/
def rationalize (c : Config) : Config × Option String :=
  match decodeURL lib c.gcsConnection.customEndpoint with
  | .error e => ({ c with gcsConnection.customEndpoint := "" }, some e)
  | .ok customEndpoint =>
    let c := { c with gcsConnection.customEndpoint := customEndpoint }
    match decodeURL lib c.gcsAuth.tokenUrl with
    | .error e => ({ c with gcsAuth.tokenUrl := "" }, some e)
    | .ok tokenUrl =>
      let c := { c with gcsAuth.tokenUrl := tokenUrl }
      let c := resolveLoggingConfig lib c
      let c := { c with trace := resolveTraceConfig lib c.trace }
      let c := { c with read := resolveReadConfig c.read }
      let c := { c with write := resolveStreamingWriteConfig c.write }
      let c := { c with metadataCache := resolveMetadataCacheConfig v optimizedFlags c.metadataCache }
      let c := { c with metadataCache := resolveStatCacheMaxSizeMB v optimizedFlags c.metadataCache }
      let c := { c with metrics := resolveCloudMetricsUploadIntervalSecs c.metrics }
      let c := { c with fileCache := resolveParallelDownloadsValue v c.fileCache c }
      let c := resolveFileCacheAndBufferedReadConflict c
      ({ c with gcsRetries := resolveGCSRetriesConfig c.gcsRetries }, none)

end Resolve

/-! ## What each resolver writes

Each resolver as the record it is given with the fields it writes; the
proofs below read these rather than the resolvers' chains of `if`. -/

section Fields

variable (lib : Lib) (v : Viper) (opt : List String)

/-- What `resolveMetadataCacheConfig` writes, field by field. -/
theorem resolveMetadataCacheConfig_eq (m : MetadataCacheConfig) :
    resolveMetadataCacheConfig v opt m =
      { m with
        negativeTtlSecs :=
          if (v.isSet metadataNegativeCacheTTLConfigKey || isFlagPresent opt metadataNegativeCacheTTLConfigKey) = true then
            if m.negativeTtlSecs = -1 then maxSupportedTTLInSeconds else m.negativeTtlSecs
          else m.negativeTtlSecs
        ttlSecs :=
          if v.isSet metadataCacheTTLConfigKey = true then
            if m.ttlSecs = -1 then maxSupportedTTLInSeconds else m.ttlSecs
          else if ((v.isSet metadataCacheStatCacheTTLConfigKey || v.isSet metadataCacheTypeCacheTTLConfigKey) ||
              !isFlagPresent opt metadataCacheTTLConfigKey) = true then
            floatToInt64 (mathMin (durationSeconds m.deprecatedStatCacheTtl)
              (durationSeconds m.deprecatedTypeCacheTtl)).ceil
          else if m.ttlSecs = -1 then maxSupportedTTLInSeconds else m.ttlSecs
        metadataPrefetchMaxWorkers :=
          if m.metadataPrefetchMaxWorkers = -1 then maxInt64 else m.metadataPrefetchMaxWorkers
        metadataPrefetchEntriesLimit :=
          if m.metadataPrefetchEntriesLimit = -1 then maxInt64 else m.metadataPrefetchEntriesLimit } := by
  unfold resolveMetadataCacheConfig
  dsimp only
  repeat' split
  all_goals rfl

/-- What `resolveStatCacheMaxSizeMB` writes. -/
theorem resolveStatCacheMaxSizeMB_eq (m : MetadataCacheConfig) :
    resolveStatCacheMaxSizeMB v opt m =
      { m with
        statCacheMaxSizeMb :=
          if v.isSet statCacheMaxSizeConfigKey = true then
            if m.statCacheMaxSizeMb = -1 then maxSupportedStatCacheMaxSizeMB else m.statCacheMaxSizeMb
          else if (v.isSet metadataCacheStatCacheCapacityConfigKey ||
              !isFlagPresent opt statCacheMaxSizeConfigKey) = true then
            calculateSizeFromCapacity m.deprecatedStatCacheCapacity
          else if m.statCacheMaxSizeMb = -1 then maxSupportedStatCacheMaxSizeMB else m.statCacheMaxSizeMb } := by
  unfold resolveStatCacheMaxSizeMB
  dsimp only
  repeat' split
  all_goals rfl

theorem resolveReadConfig_eq (r : ReadConfig) :
    resolveReadConfig r = { r with globalMaxBlocks := if r.globalMaxBlocks = -1 then maxInt32 else r.globalMaxBlocks } := by
  unfold resolveReadConfig
  split <;> rfl

theorem resolveStreamingWriteConfig_eq (w : WriteConfig) :
    resolveStreamingWriteConfig w =
      { w with
        createEmptyFile := if w.enableStreamingWrites = true then false else w.createEmptyFile
        globalMaxBlocks := if w.globalMaxBlocks = -1 then maxInt64 else w.globalMaxBlocks
        maxBlocksPerFile := if w.maxBlocksPerFile = -1 then maxInt16 else w.maxBlocksPerFile } := by
  unfold resolveStreamingWriteConfig
  dsimp only
  repeat' split
  all_goals rfl

theorem resolveCloudMetricsUploadIntervalSecs_eq (m : MetricsConfig) :
    resolveCloudMetricsUploadIntervalSecs m =
      { m with
        cloudMetricsExportIntervalSecs :=
          if m.cloudMetricsExportIntervalSecs = 0 then floatToInt64 (durationSeconds m.stackdriverExportInterval)
          else m.cloudMetricsExportIntervalSecs } := by
  unfold resolveCloudMetricsUploadIntervalSecs
  split <;> rfl

theorem resolveParallelDownloadsValue_eq (fc : FileCacheConfig) (c : Config) :
    resolveParallelDownloadsValue v fc c =
      { fc with
        enableParallelDownloads :=
          if (isFileCacheEnabled c && !v.isSet fileCacheParallelDownloadsConfigKey) = true then true
          else fc.enableParallelDownloads } := by
  unfold resolveParallelDownloadsValue
  split <;> rfl

theorem resolveFileCacheAndBufferedReadConflict_eq (c : Config) :
    resolveFileCacheAndBufferedReadConflict c =
      { c with
        read.enableBufferedRead :=
          if (isFileCacheEnabled c && c.read.enableBufferedRead) = true then false else c.read.enableBufferedRead } := by
  unfold resolveFileCacheAndBufferedReadConflict
  split <;> rfl

theorem resolveGCSRetriesConfig_eq (g : GcsRetriesConfig) :
    resolveGCSRetriesConfig g =
      { g with maxRetryAttempts := if g.maxRetryAttempts = 0 then maxInt64 else g.maxRetryAttempts } := by
  unfold resolveGCSRetriesConfig
  split <;> rfl

theorem resolveLoggingConfig_eq (c : Config) :
    resolveLoggingConfig lib c =
      { c with
        logging.severity := if (c.debug.fuse || c.debug.gcs || c.debug.logMutex) = true then "TRACE" else c.logging.severity
        logging.format :=
          if [logFormatText, logFormatJSON].contains (lib.toLower c.logging.format) = true then lib.toLower c.logging.format
          else defaultLogFormat } := by
  unfold resolveLoggingConfig
  dsimp only
  repeat' split
  all_goals rfl

theorem resolveLoggingConfig_debug (c : Config) : (resolveLoggingConfig lib c).debug = c.debug := by
  rw [resolveLoggingConfig_eq]

/-- The resolved logging section depends on the debug flags and the
logging section only. -/
theorem resolveLoggingConfig_logging {c c' : Config} (hd : c'.debug = c.debug) (hl : c'.logging = c.logging) :
    resolveLoggingConfig lib c' = { c' with logging := (resolveLoggingConfig lib c).logging } := by
  rw [resolveLoggingConfig_eq, resolveLoggingConfig_eq, hd, hl]

end Fields

/-! ## Each resolver is idempotent -/

/-- Replacing a sentinel by another value, twice, is replacing it once. -/
theorem replace_replace {x a b : Int} (hb : b ≠ a) :
    (if (if x = a then b else x) = a then b else if x = a then b else x) = if x = a then b else x := by
  by_cases hx : x = a
  · simp only [hx, if_true, hb, if_false]
  · simp only [hx, if_false]

section Idem

variable (lib : Lib) (v : Viper) (opt : List String)

theorem resolveMetadataCacheConfig_idem (m : MetadataCacheConfig) :
    resolveMetadataCacheConfig v opt (resolveMetadataCacheConfig v opt m) = resolveMetadataCacheConfig v opt m := by
  have hT : maxSupportedTTLInSeconds ≠ -1 := by decide
  have hI : maxInt64 ≠ -1 := by decide
  rw [resolveMetadataCacheConfig_eq v opt m, resolveMetadataCacheConfig_eq]
  dsimp only
  congr 1
  · rw [replace_replace hI]
  · rw [replace_replace hI]
  · -- the negative TTL: the same condition both times
    by_cases h : (v.isSet metadataNegativeCacheTTLConfigKey ||
        isFlagPresent opt metadataNegativeCacheTTLConfigKey) = true
    · simp only [h, if_true, replace_replace hT]
    · simp only [h, Bool.false_eq_true, if_false]
  · -- the TTL: a setting, else the deprecated TTLs, which no call writes, else the sentinel
    by_cases hs : v.isSet metadataCacheTTLConfigKey = true
    · simp only [hs, if_true, replace_replace hT]
    · by_cases hd : ((v.isSet metadataCacheStatCacheTTLConfigKey || v.isSet metadataCacheTypeCacheTTLConfigKey) ||
          !isFlagPresent opt metadataCacheTTLConfigKey) = true
      · simp only [hs, hd, Bool.false_eq_true, if_true, if_false]
      · simp only [hs, hd, Bool.false_eq_true, if_false, replace_replace hT]

theorem resolveStatCacheMaxSizeMB_idem (m : MetadataCacheConfig) :
    resolveStatCacheMaxSizeMB v opt (resolveStatCacheMaxSizeMB v opt m) = resolveStatCacheMaxSizeMB v opt m := by
  have hM : (maxSupportedStatCacheMaxSizeMB : Int) ≠ -1 := by decide
  rw [resolveStatCacheMaxSizeMB_eq v opt m, resolveStatCacheMaxSizeMB_eq]
  dsimp only
  congr 1
  -- a setting, else the deprecated capacity, which no call writes, else the sentinel
  by_cases hs : v.isSet statCacheMaxSizeConfigKey = true
  · simp only [hs, if_true, replace_replace hM]
  · by_cases hc : (v.isSet metadataCacheStatCacheCapacityConfigKey || !isFlagPresent opt statCacheMaxSizeConfigKey) = true
    · simp only [hs, hc, Bool.false_eq_true, if_true, if_false]
    · simp only [hs, hc, Bool.false_eq_true, if_false, replace_replace hM]

theorem resolveMetadataCacheConfig_statCache (m : MetadataCacheConfig) :
    resolveMetadataCacheConfig v opt (resolveStatCacheMaxSizeMB v opt m) =
      resolveStatCacheMaxSizeMB v opt (resolveMetadataCacheConfig v opt m) := by
  simp only [resolveMetadataCacheConfig_eq, resolveStatCacheMaxSizeMB_eq]

theorem resolveReadConfig_idem (r : ReadConfig) : resolveReadConfig (resolveReadConfig r) = resolveReadConfig r := by
  rw [resolveReadConfig_eq r, resolveReadConfig_eq]
  dsimp only
  rw [replace_replace (by decide)]

theorem resolveReadConfig_enableBufferedRead (r : ReadConfig) (b : Bool) :
    resolveReadConfig { r with enableBufferedRead := b } = { resolveReadConfig r with enableBufferedRead := b } := by
  simp only [resolveReadConfig_eq]

theorem resolveStreamingWriteConfig_idem (w : WriteConfig) :
    resolveStreamingWriteConfig (resolveStreamingWriteConfig w) = resolveStreamingWriteConfig w := by
  rw [resolveStreamingWriteConfig_eq w, resolveStreamingWriteConfig_eq]
  dsimp only
  rw [replace_replace (by decide), replace_replace (by decide)]
  cases w.enableStreamingWrites <;> rfl

theorem resolveCloudMetricsUploadIntervalSecs_idem (m : MetricsConfig) :
    resolveCloudMetricsUploadIntervalSecs (resolveCloudMetricsUploadIntervalSecs m) =
      resolveCloudMetricsUploadIntervalSecs m := by
  rw [resolveCloudMetricsUploadIntervalSecs_eq m, resolveCloudMetricsUploadIntervalSecs_eq]
  dsimp only
  congr 1
  -- an interval read from the deprecated one stays, zero or not
  by_cases h : m.cloudMetricsExportIntervalSecs = 0
  · simp only [h, if_true, ite_self]
  · simp only [h, if_false]

theorem resolveGCSRetriesConfig_idem (g : GcsRetriesConfig) :
    resolveGCSRetriesConfig (resolveGCSRetriesConfig g) = resolveGCSRetriesConfig g := by
  rw [resolveGCSRetriesConfig_eq g, resolveGCSRetriesConfig_eq]
  dsimp only
  rw [replace_replace (by decide)]

theorem resolveParallelDownloadsValue_idem (fc : FileCacheConfig) {c c' : Config}
    (h : isFileCacheEnabled c' = isFileCacheEnabled c) :
    resolveParallelDownloadsValue v (resolveParallelDownloadsValue v fc c) c' = resolveParallelDownloadsValue v fc c := by
  rw [resolveParallelDownloadsValue_eq v fc, resolveParallelDownloadsValue_eq, h]
  dsimp only
  split_ifs <;> rfl

theorem resolveTraceConfig_idem
    (htrace : ∀ s, lib.toLower (lib.trimSpace (lib.toLower (lib.trimSpace s))) = lib.toLower (lib.trimSpace s))
    (t : TraceConfig) : resolveTraceConfig lib (resolveTraceConfig lib t) = resolveTraceConfig lib t := by
  unfold resolveTraceConfig
  simp only [List.map_map, Function.comp_def, htrace]

theorem resolveLoggingConfig_idem (hlower : ∀ s, lib.toLower (lib.toLower s) = lib.toLower s)
    (hjson : lib.toLower defaultLogFormat = defaultLogFormat) (c : Config) :
    resolveLoggingConfig lib (resolveLoggingConfig lib c) = resolveLoggingConfig lib c := by
  rw [resolveLoggingConfig_eq lib c, resolveLoggingConfig_eq]
  dsimp only
  have hsev : ∀ (b : Bool) (x y : String), (if b = true then x else if b = true then x else y) = if b = true then x else y := by
    intro b x y
    cases b <;> rfl
  by_cases hc : [logFormatText, logFormatJSON].contains (lib.toLower c.logging.format) = true
  · simp only [hc, hlower, if_true, hsev]
  · simp only [hc, Bool.false_eq_true, if_false, hjson, ite_self, hsev]

end Idem

/-! ## What `Rationalize` returns -/

section Rationalize

variable (lib : Lib) (v : Viper) (opt : List String)

/-- The config `Rationalize` leaves when the URLs decode to `ep` and `tu`:
each section resolved from the config it was given. -/
def resolved (c : Config) (ep tu : String) : Config :=
  { c with
    gcsConnection.customEndpoint := ep
    gcsAuth.tokenUrl := tu
    logging := (resolveLoggingConfig lib c).logging
    trace := resolveTraceConfig lib c.trace
    read :=
      { resolveReadConfig c.read with
        enableBufferedRead :=
          if (isFileCacheEnabled c && c.read.enableBufferedRead) = true then false else c.read.enableBufferedRead }
    write := resolveStreamingWriteConfig c.write
    metadataCache := resolveStatCacheMaxSizeMB v opt (resolveMetadataCacheConfig v opt c.metadataCache)
    metrics := resolveCloudMetricsUploadIntervalSecs c.metrics
    fileCache := resolveParallelDownloadsValue v c.fileCache c
    gcsRetries := resolveGCSRetriesConfig c.gcsRetries }

theorem rationalize_eq_of_decode {c : Config} {ep tu : String}
    (hep : lib.parseURL c.gcsConnection.customEndpoint = .ok ep) (htu : lib.parseURL c.gcsAuth.tokenUrl = .ok tu) :
    rationalize lib v opt c = (resolved lib v opt c ep tu, none) := by
  unfold rationalize decodeURL
  simp only [hep, htu, resolved, resolveLoggingConfig_eq, resolveFileCacheAndBufferedReadConflict_eq,
    resolveParallelDownloadsValue_eq, resolveReadConfig_eq]
  rfl

theorem isFileCacheEnabled_resolved (c : Config) (ep tu : String) :
    isFileCacheEnabled (resolved lib v opt c ep tu) = isFileCacheEnabled c := by
  unfold isFileCacheEnabled resolved
  rw [resolveParallelDownloadsValue_eq]

theorem rationalize_of_customEndpoint_error {c : Config} {e : String}
    (he : lib.parseURL c.gcsConnection.customEndpoint = .error e) :
    rationalize lib v opt c = ({ c with gcsConnection.customEndpoint := "" }, some e) := by
  unfold rationalize decodeURL
  rw [he]

theorem rationalize_of_tokenUrl_error {c : Config} {ep e : String}
    (hep : lib.parseURL c.gcsConnection.customEndpoint = .ok ep) (he : lib.parseURL c.gcsAuth.tokenUrl = .error e) :
    rationalize lib v opt c = ({ c with gcsConnection.customEndpoint := ep, gcsAuth.tokenUrl := "" }, some e) := by
  unfold rationalize decodeURL
  simp only [hep, he]

/-- `Rationalize` fails exactly when one of the URLs does not parse. -/
theorem rationalize_ok_iff {c : Config} :
    (rationalize lib v opt c).2 = none ↔
      (∃ ep, lib.parseURL c.gcsConnection.customEndpoint = .ok ep) ∧ ∃ tu, lib.parseURL c.gcsAuth.tokenUrl = .ok tu := by
  cases hep : lib.parseURL c.gcsConnection.customEndpoint with
  | error e => simp [rationalize_of_customEndpoint_error lib v opt hep]
  | ok ep =>
    cases htu : lib.parseURL c.gcsAuth.tokenUrl with
    | error e => simp [rationalize_of_tokenUrl_error lib v opt hep htu]
    | ok tu => simp [rationalize_eq_of_decode lib v opt hep htu]

/-! ## `Rationalize` is idempotent

`Rationalized` says a config is a fixed point of each step of
`Rationalize`, and `Rationalize` leaves such a config as it is. What it
returns, `resolved`, is rationalized: each resolver is idempotent, the two
that share the metadata-cache section commute, and the conflict and
parallel-download resolvers read only file-cache settings that no
resolver writes. -/

/-- **A rationalized config**: its URLs decode to themselves and every
resolver leaves it as it is. -/
structure Rationalized (c : Config) : Prop where
  customEndpoint : lib.parseURL c.gcsConnection.customEndpoint = .ok c.gcsConnection.customEndpoint
  tokenUrl : lib.parseURL c.gcsAuth.tokenUrl = .ok c.gcsAuth.tokenUrl
  logging : resolveLoggingConfig lib c = c
  trace : resolveTraceConfig lib c.trace = c.trace
  read : resolveReadConfig c.read = c.read
  write : resolveStreamingWriteConfig c.write = c.write
  metadataCache : resolveMetadataCacheConfig v opt c.metadataCache = c.metadataCache
  statCache : resolveStatCacheMaxSizeMB v opt c.metadataCache = c.metadataCache
  metrics : resolveCloudMetricsUploadIntervalSecs c.metrics = c.metrics
  fileCache : resolveParallelDownloadsValue v c.fileCache c = c.fileCache
  bufferedRead : resolveFileCacheAndBufferedReadConflict c = c
  gcsRetries : resolveGCSRetriesConfig c.gcsRetries = c.gcsRetries

/-- `Rationalize` leaves a rationalized config as it is. -/
theorem rationalize_of_rationalized {c : Config} (h : Rationalized lib v opt c) :
    rationalize lib v opt c = (c, none) := by
  unfold rationalize decodeURL
  simp only [h.customEndpoint, h.tokenUrl, h.logging, h.trace, h.read, h.write, h.metadataCache,
    h.statCache, h.metrics, h.fileCache, h.bufferedRead, h.gcsRetries]

/-- The config `Rationalize` leaves is rationalized, under URL parsing that
is stable on its output, a lower-casing that is idempotent and leaves the
default format, and trimming then lower-casing that is idempotent. -/
theorem rationalized_resolved (hurl : ∀ u u', lib.parseURL u = .ok u' → lib.parseURL u' = .ok u')
    (hlower : ∀ s, lib.toLower (lib.toLower s) = lib.toLower s)
    (hjson : lib.toLower defaultLogFormat = defaultLogFormat)
    (htrace : ∀ s, lib.toLower (lib.trimSpace (lib.toLower (lib.trimSpace s))) = lib.toLower (lib.trimSpace s))
    {c : Config} {ep tu : String}
    (hep : lib.parseURL c.gcsConnection.customEndpoint = .ok ep) (htu : lib.parseURL c.gcsAuth.tokenUrl = .ok tu) :
    Rationalized lib v opt (resolved lib v opt c ep tu) where
  customEndpoint := hurl _ _ hep
  tokenUrl := hurl _ _ htu
  logging := by
    have hl : resolveLoggingConfig lib (resolved lib v opt c ep tu) =
        { resolved lib v opt c ep tu with logging := (resolveLoggingConfig lib (resolveLoggingConfig lib c)).logging } :=
      resolveLoggingConfig_logging lib (resolveLoggingConfig_debug lib c).symm rfl
    rw [hl, resolveLoggingConfig_idem lib hlower hjson]
    rfl
  trace := resolveTraceConfig_idem lib htrace c.trace
  read := by
    change resolveReadConfig { resolveReadConfig c.read with enableBufferedRead := _ } = _
    rw [resolveReadConfig_enableBufferedRead, resolveReadConfig_idem]
    rfl
  write := resolveStreamingWriteConfig_idem _
  metadataCache := by
    change resolveMetadataCacheConfig v opt (resolveStatCacheMaxSizeMB v opt _) = _
    rw [resolveMetadataCacheConfig_statCache, resolveMetadataCacheConfig_idem]
    rfl
  statCache := resolveStatCacheMaxSizeMB_idem v opt _
  metrics := resolveCloudMetricsUploadIntervalSecs_idem _
  fileCache := resolveParallelDownloadsValue_idem v _ (isFileCacheEnabled_resolved lib v opt c ep tu)
  bufferedRead := by
    -- buffered reads are already off wherever the file cache is on
    have hoff : (isFileCacheEnabled c && (resolved lib v opt c ep tu).read.enableBufferedRead) = false := by
      change (isFileCacheEnabled c && if (isFileCacheEnabled c && c.read.enableBufferedRead) = true then false
        else c.read.enableBufferedRead) = false
      cases isFileCacheEnabled c <;> cases c.read.enableBufferedRead <;> rfl
    rw [resolveFileCacheAndBufferedReadConflict_eq, isFileCacheEnabled_resolved, hoff]
    rfl
  gcsRetries := resolveGCSRetriesConfig_idem _

/-- **`Rationalize` is idempotent**: a config it resolved without error, it
leaves as it is, under the same settings and optimized flags. The library
functions are assumed stable on their own output. -/
theorem rationalize_idempotent (hurl : ∀ u u', lib.parseURL u = .ok u' → lib.parseURL u' = .ok u')
    (hlower : ∀ s, lib.toLower (lib.toLower s) = lib.toLower s)
    (hjson : lib.toLower defaultLogFormat = defaultLogFormat)
    (htrace : ∀ s, lib.toLower (lib.trimSpace (lib.toLower (lib.trimSpace s))) = lib.toLower (lib.trimSpace s))
    {c c' : Config} (h : rationalize lib v opt c = (c', none)) : rationalize lib v opt c' = (c', none) := by
  obtain ⟨⟨ep, hep⟩, ⟨tu, htu⟩⟩ := (rationalize_ok_iff lib v opt).1 (congrArg Prod.snd h)
  rw [rationalize_eq_of_decode lib v opt hep htu] at h
  obtain ⟨rfl, -⟩ := Prod.mk.inj h
  exact rationalize_of_rationalized lib v opt (rationalized_resolved lib v opt hurl hlower hjson htrace hep htu)

end Rationalize

/-- A library whose URLs all parse to themselves and whose string
functions are the identity. -/
def plainLib : Lib := ⟨.ok, id, id⟩

/-- A viper in which the user set nothing. -/
def unsetViper : Viper := ⟨fun _ => false, fun _ => ""⟩

theorem rationalize_idempotent_default :
    ∃ c', rationalize plainLib unsetViper [] (defaultConfig 8) = (c', none) ∧
      rationalize plainLib unsetViper [] c' = (c', none) :=
  ⟨_, rfl, rationalize_idempotent plainLib unsetViper [] (fun _ _ _ => rfl) (fun _ => rfl) rfl (fun _ => rfl) rfl⟩

end Cfg

end GcsFuse
