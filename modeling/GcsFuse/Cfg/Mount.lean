import GcsFuse.Cfg.Optimize
import GcsFuse.Cfg.Rationalize
/-!
# cfg — the two optimization passes of a mount

`cmd/root.go` optimizes the config for the machine and rationalizes it
with the flags that run reported, before the mount. `internal/fs/fs.go`,
once it knows the bucket's type, optimizes the config again with that
type and, when the second run reports a flag, rationalizes it again with
the flags of the second run. Its comment calls this safe since both
functions are idempotent.

Each is, for the same inputs (`applyOptimizations_idempotent`,
`rationalize_idempotent`). But the second `ApplyOptimizations` reports
only the flags it changes, and a flag whose optimized value the first
`Rationalize` kept is not among them; the second `Rationalize` then takes
it for a flag no optimization chose. For the stat-cache size, the size
from the deprecated capacity replaces the optimized one
(`bucketTypeConfig_statCache`).
-/

namespace GcsFuse

namespace Cfg

/-- `GetBucketType`. -/
def getBucketType (hierarchical zonal pirlo : Bool) : String :=
  if zonal then "zonal" else if pirlo then "pirlo" else if hierarchical then "hierarchical" else "flat"

/-- `slices.Collect(maps.Keys(optimizedFlags))`. `Rationalize` asks only
whether a name is among them, so their order, which Go leaves random,
does not matter. -/
def optimizedFlagNames (optimizedFlags : List (String × OptimizationResult)) : List String :=
  optimizedFlags.map (·.1)

section Mount

variable (numCPU : ℕ) (lib : Lib) (v : Viper) (server : Option String)

/-- The end of the root command's `PersistentPreRunE`, after
`ValidateConfig`: the optimizations without a bucket type, then
`Rationalize` with the flags they reported, whose error fails the
command. -/
def rootConfig (c : Config) : Except String Optimized :=
  let (c, optimizedFlags) := applyOptimizations numCPU v server c none
  match rationalize lib v (optimizedFlagNames optimizedFlags) c with
  | (_, some e) => .error ("error rationalizing config: " ++ e)
  | (c, none) => .ok (c, optimizedFlags)

/-- The bucket-type optimizations of `NewFileSystem` for a mount of one
bucket: `Rationalize` again when they report a flag. Its error is only
logged, and the config kept as `Rationalize` left it. -/
def bucketTypeConfig (c : Config) (hierarchical zonal pirlo : Bool) : Config :=
  let (c, optimizedFlags) :=
    applyOptimizations numCPU v server c (some ⟨getBucketType hierarchical zonal pirlo⟩)
  if optimizedFlags.length > 0 then (rationalize lib v (optimizedFlagNames optimizedFlags) c).1 else c

/-- The config a mount of one bucket works with: the root command's, then
the bucket type's. -/
def mountConfig (c : Config) (hierarchical zonal pirlo : Bool) : Except String Config := do
  let (c, _) ← rootConfig numCPU lib v server c
  pure (bucketTypeConfig numCPU lib v server c hierarchical zonal pirlo)

end Mount

/-! ## What the passes leave -/

/-- The URLs and the deprecated stat-cache capacity. -/
def urlsAndCapacity (c : Config) : String × String × Int :=
  (c.gcsConnection.customEndpoint, c.gcsAuth.tokenUrl, c.metadataCache.deprecatedStatCacheCapacity)

theorem optimizedFlags_preserve_urlsAndCapacity : ∀ f ∈ optimizedFlags, f.2.Preserves urlsAndCapacity := by
  simp only [optimizedFlags, List.forall_mem_cons, List.not_mem_nil, IsEmpty.forall_iff, implies_true, and_true]
  repeat' constructor
  all_goals
    rintro c _ ⟨x, rfl⟩
    rfl

theorem applyOptimizations_urlsAndCapacity (numCPU : ℕ) (v : Viper) (server : Option String) (c : Config)
    (input : Option OptimizationInput) :
    urlsAndCapacity (applyOptimizations numCPU v server c input).1 = urlsAndCapacity c :=
  applyOptimizations_preserves urlsAndCapacity optimizedFlags_preserve_urlsAndCapacity (fun _ _ => rfl)
    numCPU v server c input

section Resolved

variable (lib : Lib) (v : Viper) (opt : List String)

theorem resolved_deprecatedStatCacheCapacity (c : Config) (ep tu : String) :
    (resolved lib v opt c ep tu).metadataCache.deprecatedStatCacheCapacity = c.metadataCache.deprecatedStatCacheCapacity := by
  simp only [resolved, resolveStatCacheMaxSizeMB_eq, resolveMetadataCacheConfig_eq]

/-- With no stat-cache setting and no optimization of it, `Rationalize`
sizes the stat cache from the deprecated capacity. -/
theorem resolved_statCacheMaxSizeMb_of_not_optimized {c : Config} {ep tu : String}
    (hs : v.isSet statCacheMaxSizeConfigKey = false) (ho : statCacheMaxSizeConfigKey ∉ opt) :
    (resolved lib v opt c ep tu).metadataCache.statCacheMaxSizeMb =
      calculateSizeFromCapacity c.metadataCache.deprecatedStatCacheCapacity := by
  have hp : isFlagPresent opt statCacheMaxSizeConfigKey = false := by
    simpa [isFlagPresent] using ho
  simp only [resolved, resolveStatCacheMaxSizeMB_eq, hs, hp, Bool.false_eq_true, if_false, Bool.not_false,
    Bool.or_true, if_true]
  simp only [resolveMetadataCacheConfig_eq]

end Resolved

section Passes

variable (numCPU : ℕ) (lib : Lib) (v : Viper) (server : Option String)

theorem rootConfig_eq_ok {c c₁ : Config} {flags₁ : List (String × OptimizationResult)}
    (h : rootConfig numCPU lib v server c = .ok (c₁, flags₁)) :
    flags₁ = (applyOptimizations numCPU v server c none).2 ∧
      rationalize lib v (optimizedFlagNames flags₁) (applyOptimizations numCPU v server c none).1 = (c₁, none) := by
  unfold rootConfig at h
  generalize applyOptimizations numCPU v server c none = r at h ⊢
  obtain ⟨c₀, flags₀⟩ := r
  dsimp only at h ⊢
  split at h
  · cases h
  · rename_i c' heq
    cases h
    exact ⟨rfl, heq⟩

/-- **The second pass sizes the stat cache from the deprecated capacity**
whenever it reports a flag and the stat-cache size is not among them,
whatever size the first pass chose, unless the user set the size. -/
theorem bucketTypeConfig_statCache (hurl : ∀ u u', lib.parseURL u = .ok u' → lib.parseURL u' = .ok u')
    {c c₁ : Config} {flags₁ : List (String × OptimizationResult)}
    (h₁ : rootConfig numCPU lib v server c = .ok (c₁, flags₁)) (hs : v.isSet statCacheMaxSizeConfigKey = false)
    {hierarchical zonal pirlo : Bool}
    (hrep : (applyOptimizations numCPU v server c₁ (some ⟨getBucketType hierarchical zonal pirlo⟩)).2 ≠ [])
    (hstat : statCacheMaxSizeConfigKey ∉
      optimizedFlagNames (applyOptimizations numCPU v server c₁ (some ⟨getBucketType hierarchical zonal pirlo⟩)).2) :
    (bucketTypeConfig numCPU lib v server c₁ hierarchical zonal pirlo).metadataCache.statCacheMaxSizeMb =
      calculateSizeFromCapacity c.metadataCache.deprecatedStatCacheCapacity := by
  -- the first pass: `c₁` is what `Rationalize` resolved, with URLs that parse
  obtain ⟨-, hr₁⟩ := rootConfig_eq_ok numCPU lib v server h₁
  have hu₀ := applyOptimizations_urlsAndCapacity numCPU v server c none
  generalize applyOptimizations numCPU v server c none = r₀ at hr₁ hu₀
  obtain ⟨⟨ep, hep⟩, ⟨tu, htu⟩⟩ := (rationalize_ok_iff lib v _).1 (congrArg Prod.snd hr₁)
  rw [rationalize_eq_of_decode lib v _ hep htu] at hr₁
  obtain ⟨rfl, -⟩ := Prod.mk.inj hr₁
  -- the second pass keeps the URLs and the capacity, and rationalizes
  have hu₂ := applyOptimizations_urlsAndCapacity numCPU v server (resolved lib v (optimizedFlagNames flags₁) r₀.1 ep tu)
    (some ⟨getBucketType hierarchical zonal pirlo⟩)
  unfold bucketTypeConfig
  generalize applyOptimizations numCPU v server _ (some ⟨getBucketType hierarchical zonal pirlo⟩) = r₂
    at hrep hstat hu₂ ⊢
  obtain ⟨c₂, flags₂⟩ := r₂
  simp only [urlsAndCapacity, Prod.mk.injEq] at hu₀ hu₂
  obtain ⟨hep₂, htu₂, hcap₂⟩ := hu₂
  have hlen : flags₂.length > 0 := List.length_pos_iff.2 hrep
  dsimp only
  rw [if_pos hlen, rationalize_eq_of_decode lib v _ (hep₂ ▸ hurl _ _ hep : lib.parseURL _ = .ok ep)
    (htu₂ ▸ hurl _ _ htu : lib.parseURL _ = .ok tu)]
  rw [resolved_statCacheMaxSizeMb_of_not_optimized lib v _ hs hstat, hcap₂,
    resolved_deprecatedStatCacheCapacity, hu₀.2.2]

end Passes

/-- A viper in which the user set only the machine type, a machine of the
high-performance group. -/
def highPerformanceViper : Viper :=
  ⟨fun k => k == machineTypeFlg, fun k => if k == machineTypeFlg then "a3-highgpu-8g" else ""⟩

theorem bucketTypeConfig_statCache_zonal :
    ∃ c₁ flags₁, rootConfig 8 plainLib highPerformanceViper none (defaultConfig 8) = .ok (c₁, flags₁) ∧
      (bucketTypeConfig 8 plainLib highPerformanceViper none c₁ false true false).metadataCache.statCacheMaxSizeMb =
        calculateSizeFromCapacity 20460 := by
  -- the second pass reports flags, and not the stat-cache size
  have hb : (match rootConfig 8 plainLib highPerformanceViper none (defaultConfig 8) with
      | .ok r =>
        (applyOptimizations 8 highPerformanceViper none r.1 (some ⟨getBucketType false true false⟩)).2.isEmpty ||
          (optimizedFlagNames (applyOptimizations 8 highPerformanceViper none r.1
            (some ⟨getBucketType false true false⟩)).2).contains statCacheMaxSizeConfigKey
      | .error _ => true) = false := by
    decide +kernel
  cases h : rootConfig 8 plainLib highPerformanceViper none (defaultConfig 8) with
  | error e =>
    rw [h] at hb
    cases hb
  | ok r =>
    obtain ⟨c₁, flags₁⟩ := r
    rw [h] at hb
    simp only [Bool.or_eq_false_iff, List.isEmpty_eq_false_iff] at hb
    refine ⟨c₁, flags₁, rfl, ?_⟩
    exact bucketTypeConfig_statCache 8 plainLib highPerformanceViper none (fun _ _ _ => rfl) h rfl hb.1
      (by simpa using hb.2)

-- The mount keeps the stat-cache size the machine's optimization chose and
-- reported until the second pass, which replaces it by the size of the
-- default capacity.
example :
    (rootConfig 8 plainLib highPerformanceViper none (defaultConfig 8)).map
        (fun r => (r.1.metadataCache.statCacheMaxSizeMb, (optimizedFlagNames r.2).contains statCacheMaxSizeConfigKey)) =
      .ok (1024, true) ∧
    (mountConfig 8 plainLib highPerformanceViper none (defaultConfig 8) false true false).map
        (·.metadataCache.statCacheMaxSizeMb) = .ok 34 := by
  constructor <;> decide +kernel

end Cfg

end GcsFuse
