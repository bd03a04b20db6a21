import GcsFuse.Cfg.Config
/-!
# cfg — the optimizations of a mount

`cfg/optimize.go` and the generated `ApplyOptimizations` of
`cfg/config.go`. Each flag with rules in `params.yaml` gets, unless the
user set it, the value of the first rule that applies: the active
profile's, then the machine group's, then the bucket type's.
`ApplyOptimizations` writes that value and reports the flag only when
the value differs from what the field holds: a rule whose value is
already in place is not reported.

The generated code has one block per flag, alike but for the flag's
path, field and type; the model states the block once
(`optimizeFlag`) and lists the flags with their fields, in the order of
the blocks (`optimizedFlags`).

`applyOptimizations_idempotent`: a second run with the same inputs
changes nothing and reports nothing, since a rule's value does not depend
on the value in place and the blocks write distinct fields.
-/

namespace GcsFuse

namespace Cfg

/-- A rule's `Value`, an `any`: the rules of `params.yaml` hold `int64`
and `bool` values. -/
inductive FlagValue
  | int (n : Int)
  | bool (b : Bool)
  deriving DecidableEq, Repr

/-- `shared.ProfileOptimization`. -/
structure ProfileOptimization where
  name : String
  value : FlagValue

/-- `shared.MachineBasedOptimization`. -/
structure MachineBasedOptimization where
  group : String
  value : FlagValue

/-- `shared.BucketTypeOptimization`. -/
structure BucketTypeOptimization where
  bucketType : String
  value : FlagValue

/-- `shared.OptimizationRules`. -/
structure OptimizationRules where
  machineBasedOptimization : List MachineBasedOptimization
  bucketTypeOptimization : List BucketTypeOptimization
  profiles : List ProfileOptimization

/-- `OptimizationResult`, without the reason text, which only the logs
read. -/
structure OptimizationResult where
  finalValue : FlagValue
  optimized : Bool

/-- `OptimizationInput`; a `BucketType` is a string. -/
structure OptimizationInput where
  bucketType : String

/-- `BucketType.IsValid`. -/
def bucketTypeIsValid (bt : String) : Bool :=
  bt == "zonal" || bt == "pirlo" || bt == "hierarchical" || bt == "flat"

/-- `machineTypeToGroupMap`. -/
def machineTypeToGroupMap : List (String × String) :=
  ["a2-megagpu-16g", "a2-ultragpu-8g", "a3-edgegpu-8g", "a3-highgpu-8g", "a3-megagpu-8g",
    "a3-ultragpu-8g", "a4-highgpu-8g", "a4-highgpu-8g-lowmem", "a4-highgpu-8g-nolssd",
    "a4x-highgpu-4g", "a4x-highgpu-4g-nolssd", "a4x-maxgpu-4g-metal", "ct5l-hightpu-8t",
    "ct5lp-hightpu-8t", "ct5p-hightpu-4t", "ct5p-hightpu-4t-tpu", "ct6e-standard-4t",
    "ct6e-standard-4t-tpu", "ct6e-standard-8t", "ct6e-standard-8t-tpu", "tpu7x-standard-4t",
    "tpu7x-standard-4t-tpu", "tpu7x-ultranet-4t", "tpu7x-ultranet-4t-tpu"].map
    fun m => (m, "high-performance")

/-- `machineTypeFlg`. -/
def machineTypeFlg : String := "machine-type"

/-- `getMachineType`: the user's `machine-type` if set and not empty,
else the last segment of what the metadata server answers; `server` is
its answer, `none` when every attempt failed. -/
def getMachineType (v : Viper) (server : Option String) : Except String String :=
  if v.isSet machineTypeFlg && v.getString machineTypeFlg != "" then .ok (v.getString machineTypeFlg)
  else
    match server with
    | some body => .ok ((body.splitOn "/").getLastD "")
    | none => .error "failed to get machine type from any metadata endpoint after retries"

/-- `getOptimizedValue`. Precedence: profile, then machine type, then
bucket type, else the current value, not optimized. -/
def getOptimizedValue (rules : OptimizationRules) (currentValue : FlagValue) (profileName machineType : String)
    (input : Option OptimizationInput) (groups : List (String × String)) : OptimizationResult :=
  match rules.profiles.find? (·.name == profileName) with
  | some p => ⟨p.value, true⟩
  | none =>
    let machine := (groups.lookup machineType).bind fun group =>
      rules.machineBasedOptimization.find? (·.group == group)
    match machine with
    | some mbo => ⟨mbo.value, true⟩
    | none =>
      let bucket := input.bind fun i =>
        if bucketTypeIsValid i.bucketType then rules.bucketTypeOptimization.find? (·.bucketType == i.bucketType)
        else none
      match bucket with
      | some bto => ⟨bto.value, true⟩
      | none => ⟨currentValue, false⟩

/-- `AllFlagOptimizationRules`, with the defaults that depend on the
machine computed for `numCPU` CPUs. -/
def allFlagOptimizationRules (numCPU : ℕ) : List (String × OptimizationRules) :=
  let zonalPirlo (v : FlagValue) : List BucketTypeOptimization := [⟨"zonal", v⟩, ⟨"pirlo", v⟩]
  let highPerformance (v : FlagValue) : List MachineBasedOptimization := [⟨"high-performance", v⟩]
  let aiml (v : FlagValue) : List ProfileOptimization :=
    [⟨"aiml-training", v⟩, ⟨"aiml-serving", v⟩, ⟨"aiml-checkpointing", v⟩]
  [("file-system.congestion-threshold", ⟨[], zonalPirlo (.int (defaultCongestionThreshold numCPU)), []⟩),
   ("file-system.enable-kernel-reader", ⟨[], zonalPirlo (.bool true), []⟩),
   ("file-cache.cache-file-for-range-read",
     ⟨[], [], [⟨"aiml-serving", .bool true⟩, ⟨"aiml-checkpointing", .bool true⟩]⟩),
   ("write.finalize-file-on-close", ⟨[], [⟨"zonal", .bool false⟩, ⟨"pirlo", .bool true⟩], []⟩),
   ("implicit-dirs", ⟨highPerformance (.bool true), [], aiml (.bool true)⟩),
   ("file-system.kernel-list-cache-ttl-secs", ⟨[], [], [⟨"aiml-serving", .int (-1)⟩]⟩),
   ("file-system.max-background", ⟨[], zonalPirlo (.int (defaultMaxBackground numCPU)), []⟩),
   ("file-system.max-read-ahead-kb", ⟨[], zonalPirlo (.int 16384), []⟩),
   ("metadata-cache.negative-ttl-secs", ⟨highPerformance (.int 0), [], aiml (.int 0)⟩),
   ("metadata-cache.ttl-secs", ⟨highPerformance (.int (-1)), [], aiml (.int (-1))⟩),
   ("file-system.rename-dir-limit",
     ⟨highPerformance (.int 200000), [], [⟨"aiml-checkpointing", .int 200000⟩]⟩),
   ("metadata-cache.stat-cache-max-size-mb", ⟨highPerformance (.int 1024), [], aiml (.int (-1))⟩),
   ("write.global-max-blocks", ⟨highPerformance (.int 1600), [], []⟩)]

/-- The field of `Config` a flag stands for, with its Go type. -/
inductive FlagField
  | int (get : Config → Int) (set : Config → Int → Config)
  | bool (get : Config → Bool) (set : Config → Bool → Config)

namespace FlagField

/-- The field's value, as the `any` handed to `getOptimizedValue`. -/
def current : FlagField → Config → FlagValue
  | .int get _, c => .int (get c)
  | .bool get _, c => .bool (get c)

/-- `if val, ok := FinalValue.(T); ok { if field != val { field = val } }`:
the new config when the value has the field's type and differs from it. -/
def write : FlagField → Config → FlagValue → Option Config
  | .int get set, c, .int val => if get c ≠ val then some (set c val) else none
  | .bool get set, c, .bool val => if get c ≠ val then some (set c val) else none
  | _, _, _ => none

end FlagField

/-- The flags `ApplyOptimizations` optimizes, in the order of its blocks. -/
def optimizedFlags : List (String × FlagField) :=
  [("file-system.congestion-threshold", .int (·.fileSystem.congestionThreshold)
      fun c x => { c with fileSystem.congestionThreshold := x }),
   ("file-system.enable-kernel-reader", .bool (·.fileSystem.enableKernelReader)
      fun c x => { c with fileSystem.enableKernelReader := x }),
   ("file-cache.cache-file-for-range-read", .bool (·.fileCache.cacheFileForRangeRead)
      fun c x => { c with fileCache.cacheFileForRangeRead := x }),
   ("write.finalize-file-on-close", .bool (·.write.finalizeFileOnClose)
      fun c x => { c with write.finalizeFileOnClose := x }),
   ("implicit-dirs", .bool (·.implicitDirs) fun c x => { c with implicitDirs := x }),
   ("file-system.kernel-list-cache-ttl-secs", .int (·.fileSystem.kernelListCacheTtlSecs)
      fun c x => { c with fileSystem.kernelListCacheTtlSecs := x }),
   ("file-system.max-background", .int (·.fileSystem.maxBackground)
      fun c x => { c with fileSystem.maxBackground := x }),
   ("file-system.max-read-ahead-kb", .int (·.fileSystem.maxReadAheadKb)
      fun c x => { c with fileSystem.maxReadAheadKb := x }),
   ("metadata-cache.negative-ttl-secs", .int (·.metadataCache.negativeTtlSecs)
      fun c x => { c with metadataCache.negativeTtlSecs := x }),
   ("metadata-cache.ttl-secs", .int (·.metadataCache.ttlSecs)
      fun c x => { c with metadataCache.ttlSecs := x }),
   ("file-system.rename-dir-limit", .int (·.fileSystem.renameDirLimit)
      fun c x => { c with fileSystem.renameDirLimit := x }),
   ("metadata-cache.stat-cache-max-size-mb", .int (·.metadataCache.statCacheMaxSizeMb)
      fun c x => { c with metadataCache.statCacheMaxSizeMb := x }),
   ("write.global-max-blocks", .int (·.write.globalMaxBlocks)
      fun c x => { c with write.globalMaxBlocks := x })]

/-- The config so far and the flags optimized so far, in the order the
blocks report them. -/
abbrev Optimized := Config × List (String × OptimizationResult)

section Apply

variable (numCPU : ℕ) (v : Viper) (profileName machineType : String) (input : Option OptimizationInput)

/-- `AllFlagOptimizationRules[name]`: no rules for a flag without an
entry. -/
def flagRules (name : String) : OptimizationRules :=
  ((allFlagOptimizationRules numCPU).lookup name).getD ⟨[], [], []⟩

/-- One block of `ApplyOptimizations`: a flag the user did not set gets
the value of its first applicable rule, and is reported when that
changed it. -/
def optimizeFlag (acc : Optimized) (flag : String × FlagField) : Optimized :=
  if v.isSet flag.1 then acc
  else
    let result := getOptimizedValue (flagRules numCPU flag.1) (flag.2.current acc.1) profileName machineType input
      machineTypeToGroupMap
    if result.optimized then
      match flag.2.write acc.1 result.finalValue with
      | some c => (c, acc.2 ++ [(flag.1, result)])
      | none => acc
    else acc

end Apply

/-- `Config.ApplyOptimizations`: nothing when autoconfig is disabled;
otherwise the machine type is recorded (`""` when it cannot be found) and
each flag's block runs in turn. -/
def applyOptimizations (numCPU : ℕ) (v : Viper) (server : Option String) (c : Config)
    (input : Option OptimizationInput) : Optimized :=
  if c.disableAutoconfig then (c, [])
  else
    let machineType := match getMachineType v server with
      | .ok m => m
      | .error _ => ""
    let c := { c with machineType := machineType }
    optimizedFlags.foldl (optimizeFlag numCPU v c.profile machineType input) (c, [])

/-! ## `ApplyOptimizations` is idempotent

The value a rule gives does not depend on the field's current value, so a
block that wrote its flag would write nothing the second time, and the
other blocks write other fields. Run again with the same settings, machine
and input, `ApplyOptimizations` changes nothing and reports nothing. -/

/-- When a rule applies, the result does not depend on the current value. -/
theorem getOptimizedValue_of_optimized {rules : OptimizationRules} {cur cur' : FlagValue}
    {profileName machineType : String} {input : Option OptimizationInput} {groups : List (String × String)}
    (h : (getOptimizedValue rules cur profileName machineType input groups).optimized = true) :
    getOptimizedValue rules cur' profileName machineType input groups =
      getOptimizedValue rules cur profileName machineType input groups := by
  revert h
  unfold getOptimizedValue
  split
  · intro _
    rfl
  · dsimp only
    split
    · intro _
      rfl
    · split
      · intro _
        rfl
      · intro h
        cases h

/-- What `ApplyOptimizations` reads of the config besides the flags. -/
def optimizationSetup (c : Config) : String × String × Bool := (c.machineType, c.profile, c.disableAutoconfig)

namespace FlagField

/-- `c'` is `c` with this field set to some value. -/
def Writes : FlagField → Config → Config → Prop
  | .int _ set, c, c' => ∃ x, c' = set c x
  | .bool _ set, c, c' => ∃ x, c' = set c x

/-- Setting the field, then reading it, gives the value set. -/
def Lawful : FlagField → Prop
  | .int get set => ∀ c x, get (set c x) = x
  | .bool get set => ∀ c x, get (set c x) = x

/-- Setting the field leaves what `p` reads. -/
def Preserves {α : Type} (p : Config → α) (g : FlagField) : Prop :=
  ∀ c c', g.Writes c c' → p c' = p c

variable {f : FlagField} {c c' : Config} {val : FlagValue}

theorem writes_of_write (h : f.write c val = some c') : f.Writes c c' := by
  cases f <;> cases val <;> simp only [write, ne_eq, ite_not, reduceCtorEq] at h
  all_goals
    split at h
    · cases h
    · exact ⟨_, (Option.some.inj h).symm⟩

theorem current_of_write (hl : f.Lawful) (h : f.write c val = some c') : f.current c' = val := by
  cases f <;> cases val <;> simp only [write, ne_eq, ite_not, reduceCtorEq] at h
  all_goals
    split at h
    · cases h
    · cases h
      exact congrArg _ (hl _ _)

/-- Writing the value in place writes nothing. -/
theorem write_current (f : FlagField) (c : Config) : f.write c (f.current c) = none := by
  cases f <;> simp [write, current]

/-- A write depends on the config only through the field's value. -/
theorem write_eq_none_congr (h : f.current c' = f.current c) : f.write c' val = none ↔ f.write c val = none := by
  cases f <;> cases val <;> simp_all [current, write]

end FlagField

section Settle

variable (numCPU : ℕ) (v : Viper) (profileName machineType : String) (input : Option OptimizationInput)

/-- The result of a flag's rules on the config `c`. -/
def flagResult (c : Config) (flag : String × FlagField) : OptimizationResult :=
  getOptimizedValue (flagRules numCPU flag.1) (flag.2.current c) profileName machineType input machineTypeToGroupMap

/-- A flag is settled in `c` when its block would write nothing: the user
set it, no rule applies, or the rule's value is in place. -/
def Settled (c : Config) (flag : String × FlagField) : Prop :=
  v.isSet flag.1 = false → (flagResult numCPU profileName machineType input c flag).optimized = true →
    flag.2.write c (flagResult numCPU profileName machineType input c flag).finalValue = none

theorem optimizeFlag_of_settled {c : Config} {flag : String × FlagField} (acc : List (String × OptimizationResult))
    (h : Settled numCPU v profileName machineType input c flag) :
    optimizeFlag numCPU v profileName machineType input (c, acc) flag = (c, acc) := by
  unfold optimizeFlag
  cases hs : v.isSet flag.1
  · have hw := h hs
    unfold flagResult at hw
    simp only [Bool.false_eq_true, if_false]
    split
    · rename_i ho
      rw [hw ho]
    · rfl
  · simp only [if_true]

/-- A block settles its own flag. -/
theorem settled_optimizeFlag {flag : String × FlagField} (hl : flag.2.Lawful) (acc : Optimized) :
    Settled numCPU v profileName machineType input (optimizeFlag numCPU v profileName machineType input acc flag).1
      flag := by
  intro hs ho
  unfold optimizeFlag at ho ⊢
  simp only [hs, Bool.false_eq_true, if_false] at ho ⊢
  split
  · rename_i ho₁
    split
    · -- the block wrote the rule's value, which a second write finds in place
      rename_i c₁ hw
      have hr : flagResult numCPU profileName machineType input c₁ flag =
          getOptimizedValue (flagRules numCPU flag.1) (flag.2.current acc.1) profileName machineType input
            machineTypeToGroupMap :=
        getOptimizedValue_of_optimized ho₁
      rw [hr, ← FlagField.current_of_write hl hw]
      exact FlagField.write_current _ _
    · assumption
  · rename_i ho₁
    exact absurd (getOptimizedValue_of_optimized ho ▸ ho) ho₁

/-- Settling one flag leaves another settled if it does not write it. -/
theorem settled_of_writes {c c' : Config} {f g : String × FlagField} (hfg : g.2.Preserves f.2.current) (hw : g.2.Writes c c')
    (h : Settled numCPU v profileName machineType input c f) : Settled numCPU v profileName machineType input c' f := by
  intro hs ho
  have hcur : f.2.current c' = f.2.current c := hfg c c' hw
  have hr : flagResult numCPU profileName machineType input c' f = flagResult numCPU profileName machineType input c f := by
    unfold flagResult
    rw [hcur]
  rw [hr] at ho ⊢
  exact (FlagField.write_eq_none_congr hcur).2 (h hs ho)

/-- A block leaves the config, or writes its own flag. -/
theorem optimizeFlag_writes (acc : Optimized) (flag : String × FlagField) :
    (optimizeFlag numCPU v profileName machineType input acc flag).1 = acc.1 ∨
      flag.2.Writes acc.1 (optimizeFlag numCPU v profileName machineType input acc flag).1 := by
  unfold optimizeFlag
  split
  · exact .inl rfl
  · dsimp only
    split
    · split
      · exact .inr (FlagField.writes_of_write ‹_›)
      · exact .inl rfl
    · exact .inl rfl

theorem optimizeFlag_preserves {α : Type} (p : Config → α) {flag : String × FlagField} (hk : flag.2.Preserves p)
    (acc : Optimized) : p (optimizeFlag numCPU v profileName machineType input acc flag).1 = p acc.1 := by
  rcases optimizeFlag_writes numCPU v profileName machineType input acc flag with he | hw
  · rw [he]
  · exact hk _ _ hw

/-! ### The blocks in turn -/

theorem foldl_preserves {α : Type} (p : Config → α) :
    ∀ (flags : List (String × FlagField)) (acc : Optimized), (∀ f ∈ flags, f.2.Preserves p) →
      p (flags.foldl (optimizeFlag numCPU v profileName machineType input) acc).1 = p acc.1
  | [], _, _ => rfl
  | g :: flags, acc, hk => by
    rw [List.foldl_cons, foldl_preserves p flags _ fun f hf => hk f (List.mem_cons_of_mem _ hf),
      optimizeFlag_preserves numCPU v profileName machineType input p (hk g List.mem_cons_self)]

/-- A settled flag stays settled through blocks that do not write it. -/
theorem settled_foldl_of_frames {f : String × FlagField} :
    ∀ (flags : List (String × FlagField)) (acc : Optimized), (∀ g ∈ flags, g.2.Preserves f.2.current) →
      Settled numCPU v profileName machineType input acc.1 f →
      Settled numCPU v profileName machineType input
        (flags.foldl (optimizeFlag numCPU v profileName machineType input) acc).1 f
  | [], _, _, h => h
  | g :: flags, acc, hg, h => by
    rw [List.foldl_cons]
    refine settled_foldl_of_frames flags _ (fun g' hg' => hg g' (List.mem_cons_of_mem _ hg')) ?_
    rcases optimizeFlag_writes numCPU v profileName machineType input acc g with he | hw
    · rwa [he]
    · exact settled_of_writes numCPU v profileName machineType input (hg g List.mem_cons_self) hw h

/-- **After the blocks, every flag is settled**, for flags that are set
and read back and none of which writes a flag before it. -/
theorem settled_foldl :
    ∀ (flags : List (String × FlagField)) (acc : Optimized), flags.Pairwise (fun f g => g.2.Preserves f.2.current) →
      (∀ f ∈ flags, f.2.Lawful) →
      ∀ f ∈ flags, Settled numCPU v profileName machineType input
        (flags.foldl (optimizeFlag numCPU v profileName machineType input) acc).1 f
  | [], _, _, _, _, hf => absurd hf List.not_mem_nil
  | g :: flags, acc, hp, hl, f, hf => by
    rw [List.foldl_cons]
    rw [List.pairwise_cons] at hp
    rcases List.mem_cons.1 hf with rfl | hf
    · exact settled_foldl_of_frames numCPU v profileName machineType input flags _ hp.1
        (settled_optimizeFlag numCPU v profileName machineType input (hl _ List.mem_cons_self) acc)
    · exact settled_foldl flags _ hp.2 (fun f hf => hl f (List.mem_cons_of_mem _ hf)) f hf

/-- Blocks of settled flags change nothing and report nothing. -/
theorem foldl_of_settled :
    ∀ (flags : List (String × FlagField)) (c : Config) (acc : List (String × OptimizationResult)),
      (∀ f ∈ flags, Settled numCPU v profileName machineType input c f) →
      flags.foldl (optimizeFlag numCPU v profileName machineType input) (c, acc) = (c, acc)
  | [], _, _, _ => rfl
  | g :: flags, c, acc, h => by
    rw [List.foldl_cons, optimizeFlag_of_settled numCPU v profileName machineType input acc (h g List.mem_cons_self)]
    exact foldl_of_settled flags c acc fun f hf => h f (List.mem_cons_of_mem _ hf)

end Settle

/-! ### The flags of `params.yaml` -/

theorem optimizedFlags_lawful : ∀ f ∈ optimizedFlags, f.2.Lawful := by
  simp only [optimizedFlags, List.forall_mem_cons, List.not_mem_nil, IsEmpty.forall_iff, implies_true, and_true]
  repeat' constructor
  all_goals
    intro c x
    rfl

theorem optimizedFlags_preserve_setup : ∀ f ∈ optimizedFlags, f.2.Preserves optimizationSetup := by
  simp only [optimizedFlags, List.forall_mem_cons, List.not_mem_nil, IsEmpty.forall_iff, implies_true, and_true]
  repeat' constructor
  all_goals
    rintro c _ ⟨x, rfl⟩
    rfl

/-- The blocks write distinct fields. -/
theorem optimizedFlags_frames : optimizedFlags.Pairwise fun f g => g.2.Preserves f.2.current := by
  simp only [optimizedFlags, List.pairwise_cons, List.forall_mem_cons, List.not_mem_nil, IsEmpty.forall_iff,
    implies_true, and_true, List.Pairwise.nil]
  repeat' constructor
  all_goals
    rintro c _ ⟨x, rfl⟩
    rfl

/-- **`ApplyOptimizations` is idempotent**: run again with the same
settings, machine and input, it leaves the config it returned as it is
and reports no flag. -/
theorem applyOptimizations_idempotent (numCPU : ℕ) (v : Viper) (server : Option String) (c : Config)
    (input : Option OptimizationInput) :
    applyOptimizations numCPU v server (applyOptimizations numCPU v server c input).1 input =
      ((applyOptimizations numCPU v server c input).1, []) := by
  unfold applyOptimizations
  by_cases hd : c.disableAutoconfig = true
  · simp only [hd, if_true]
  · simp only [if_neg hd]
    generalize (match getMachineType v server with | .ok m => m | .error _ => "") = m
    -- the blocks leave the machine type, the profile and the switch, and settle every flag
    have hs := foldl_preserves numCPU v c.profile m input optimizationSetup optimizedFlags
      ({ c with machineType := m }, []) optimizedFlags_preserve_setup
    have hset := settled_foldl numCPU v c.profile m input optimizedFlags ({ c with machineType := m }, [])
      optimizedFlags_frames optimizedFlags_lawful
    generalize optimizedFlags.foldl (optimizeFlag numCPU v c.profile m input) ({ c with machineType := m }, []) = r
      at hs hset ⊢
    simp only [optimizationSetup, Prod.mk.injEq] at hs
    obtain ⟨rfl, hp, hd'⟩ := hs
    have hd₁ : ¬r.1.disableAutoconfig = true := by rwa [hd']
    rw [if_neg hd₁]
    rw [← hp] at hset
    exact foldl_of_settled numCPU v r.1.profile r.1.machineType input optimizedFlags r.1 [] hset

/-- What no block writes and the machine type does not touch,
`ApplyOptimizations` leaves. -/
theorem applyOptimizations_preserves {α : Type} (p : Config → α) (hp : ∀ f ∈ optimizedFlags, f.2.Preserves p)
    (hm : ∀ c m, p { c with machineType := m } = p c) (numCPU : ℕ) (v : Viper) (server : Option String) (c : Config)
    (input : Option OptimizationInput) : p (applyOptimizations numCPU v server c input).1 = p c := by
  unfold applyOptimizations
  split
  · rfl
  · dsimp only
    rw [foldl_preserves numCPU v _ _ input p optimizedFlags _ hp]
    exact hm c _

end Cfg

end GcsFuse
