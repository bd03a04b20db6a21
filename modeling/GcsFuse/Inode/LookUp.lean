import GcsFuse.Caching.FastStatBucket
/-!
# Looking up a child of a directory

`internal/fs/inode/dir.go`: `LookUpChild` finds what a name in a
directory is, a directory (an object `name/`, an implicit directory, or
a folder), a file or symlink (an object `name`), or nothing, through the
fast stat bucket. The unified lookup `fetchCoreEntity` asks for both at
once and prefers the directory, unless the type cache gives a hint. With
type-cache deprecation and a live stat cache, `LookUpChild` first asks
the stat cache alone for the directory's name, then for the file's, and
returns the first it finds there.

The stat cache answers for the names it holds, whichever they are: with
only the file's entry cached, the fast path returns the file although the
directory exists and the unified lookup would return it
(`cached_file_hides_directory`). With only the directory's record cached,
the unified lookup still asks GCS for the file first, and a failure of
that `StatObject` is its answer where the fast path returns the
directory. On a flat bucket with explicit directories only, those are the
two ways the lookups part: otherwise the fast path finds what the unified
lookup finds, the same child or the same error
(`lookUpChild_fast_path_agrees`), since the unified lookup reads the same
cache first and the file's lookup keeps the directory's entry
(`findExplicitInode_fetch`).
-/

namespace GcsFuse

namespace Inode

open Gcs Caching Metadata

/-- `metadata.Type`, the type cache's hint for a name. -/
inductive MetadataType
  | unknown
  | symlink
  | regularFile
  | explicitDir
  | implicitDir
  | nonexistent
  deriving DecidableEq, Repr

/-- `inode.Core` of a lookup: the full name, the object record, and the
folder of a hierarchical bucket. -/
structure LookUpCore where
  fullName : ObjectName
  minObject : Option Object
  folder : Option ObjectName
  deriving DecidableEq, Repr

/-- The errors of a lookup: the fast stat bucket's (a cache miss among
them), or `findDirInode`'s for a name that is not a directory's. -/
inductive LookUpError
  | bucket (e : FastStatError)
  | notDirectory
  deriving DecidableEq, Repr

/-- What a lookup found, as far as the kernel tells it apart. -/
inductive ChildKind
  | directory
  | file
  | none
  deriving DecidableEq, Repr

/-- The kind of a lookup's core: a directory's full name ends with `/`. -/
def childKind : Option LookUpCore → ChildKind
  | none => .none
  | some c => if c.fullName.getLast? = some 47 then .directory else .file

/-- `findExplicitInode`: the core of the object `name`, `nil` where it
does not exist. From the cache alone, an implicit directory's marker has
no record. `none` is the panic of `StatObject`, which these requests
never meet. -/
def findExplicitInode (b : FastStatBucket) (name : ObjectName) (fetchOnlyFromCache : Bool) :
    Option (FastStatBucket × Except LookUpError (Option LookUpCore)) :=
  (b.statObject ⟨name, false, false, fetchOnlyFromCache⟩).map fun r =>
    match r.2 with
    | .error (.gcs .notFound) => (r.1, .ok none)
    | .error e => (r.1, .error (.bucket e))
    | .ok m => (r.1, .ok (some ⟨name, if fetchOnlyFromCache ∧ m.generation = 0 then none else some m, none⟩))

/-- `findExplicitFolder`. -/
def findExplicitFolder (b : FastStatBucket) (name : ObjectName) (fetchOnlyFromCache : Bool) :
    FastStatBucket × Except LookUpError (Option LookUpCore) :=
  match b.getFolder name fetchOnlyFromCache with
  | (b', .error (.gcs .notFound)) => (b', .ok none)
  | (b', .error e) => (b', .error (.bucket e))
  | (b', .ok f) => (b', .ok (some ⟨name, none, some f⟩))

/-- The entry of least name. -/
def leastName : List (ObjectName × Object) → Option (ObjectName × Object)
  | [] => none
  | o :: os =>
    match leastName os with
    | none => some o
    | some o' => if o'.1 < o.1 then some o' else some o

/-- `findDirInode`: a listing of the name as a prefix, `MaxResults: 1`.
GCS lists in name order, so the one object listed is the least name under
the prefix, the directory's own object when it exists. -/
def findDirInode (b : FastStatBucket) (name : ObjectName) : FastStatBucket × Except LookUpError (Option LookUpCore) :=
  if name ≠ [] ∧ name.getLast? ≠ some 47 then (b, .error .notDirectory)
  else
    match leastName (b.wrapped.bucket.listObjects name false).1 with
    | none => (b.insertListed name ([], []), .ok none)
    | some o =>
      (b.insertListed name ([o], []), .ok (some ⟨name, if o.1 = name then some o.2 else none, none⟩))

/-- What the lookups read of a `dirInode`: its name (ending with `/`, or
empty at the bucket's root), its flags, and the TTL of the metadata
cache. -/
structure DirInode where
  name : ObjectName
  implicitDirs : Bool
  isHNSEnabled : Bool
  isEnableTypeCacheDeprecation : Bool
  metadataCacheTtlSecs : ℕ
  deriving DecidableEq, Repr

namespace DirInode

variable (d : DirInode)

/-- `isBucketHierarchical`. -/
def isBucketHierarchical (b : FastStatBucket) : Bool := d.isHNSEnabled && b.wrapped.hierarchical

/-- `NewFileName(d.Name(), name)`. -/
def fileName (name : ObjectName) : ObjectName := d.name ++ name

/-- `NewDirName(d.Name(), name)`: the name with a trailing `/`. -/
def dirName (name : ObjectName) : ObjectName :=
  d.name ++ if name.getLast? = some 47 then name else name ++ [47]

/-- `lookUpChildFile`. -/
def lookUpChildFile (b : FastStatBucket) (name : ObjectName) :
    Option (FastStatBucket × Except LookUpError (Option LookUpCore)) :=
  findExplicitInode b (d.fileName name) false

/-- `lookUpChildDir`: a folder, a directory implicit or explicit, or an
explicit one only. -/
def lookUpChildDir (b : FastStatBucket) (name : ObjectName) :
    Option (FastStatBucket × Except LookUpError (Option LookUpCore)) :=
  if d.isBucketHierarchical b then some (findExplicitFolder b (d.dirName name) false)
  else if d.implicitDirs then some (findDirInode b (d.dirName name))
  else findExplicitInode b (d.dirName name) false

/-- The end of `fetchCoreEntity`: an error of either lookup, else the
directory if there is one, else the file. -/
def preferDir (file dir : Except LookUpError (Option LookUpCore)) : Except LookUpError (Option LookUpCore) :=
  match file, dir with
  | .error e, _ => .error e
  | _, .error e => .error e
  | .ok f, .ok dr => .ok (dr.orElse fun _ => f)

/-- `fetchCoreEntity`. The two lookups of an unknown type run in an
errgroup; here the file's comes first, and `Wait` reports an error of
either. The prefetcher it starts is left out. -/
def fetchCoreEntity (b : FastStatBucket) (name : ObjectName) (cachedType : MetadataType) :
    Option (FastStatBucket × Except LookUpError (Option LookUpCore)) :=
  match cachedType with
  | .implicitDir => some (b, .ok (some ⟨d.dirName name, none, none⟩))
  | .explicitDir =>
    if d.isBucketHierarchical b then some (findExplicitFolder b (d.dirName name) false)
    else findExplicitInode b (d.dirName name) false
  | .regularFile | .symlink => d.lookUpChildFile b name
  | .nonexistent => some (b, .ok none)
  | .unknown => do
    let (b, file) ← d.lookUpChildFile b name
    let (b, dir) ← d.lookUpChildDir b name
    pure (b, preferDir file dir)

/-- `lookUpConflicting`: the file of a name marked with `\n`, when the
directory of the name exists. -/
def lookUpConflicting (b : FastStatBucket) (name : ObjectName) :
    Option (FastStatBucket × Except LookUpError (Option LookUpCore)) := do
  let stripped := name.dropLast
  let (b, dir) ← d.lookUpChildDir b stripped
  match dir with
  | .error e => pure (b, .error e)
  | .ok none => pure (b, .ok none)
  | .ok (some _) => d.lookUpChildFile b stripped

/-- The file step of the fast path: the file's core from the cache, an
error other than a miss, or `none` to go on. -/
def cachedFile (b : FastStatBucket) (name : ObjectName) :
    Option (FastStatBucket × Option (Except LookUpError (Option LookUpCore))) := do
  let (b, file) ← findExplicitInode b (d.fileName name) true
  match file with
  | .error e => pure (b, if e = .bucket .cacheMiss then none else some (.error e))
  | .ok (some c) => pure (b, some (.ok (some c)))
  | .ok none => pure (b, none)

/-- The fast path of `LookUpChild`: the directory first, from the cache
alone (a folder on a hierarchical bucket, whatever `isHNSEnabled` says),
then the file; `none` to go on with `fetchCoreEntity`. -/
def lookUpCached (b : FastStatBucket) (name : ObjectName) :
    Option (FastStatBucket × Option (Except LookUpError (Option LookUpCore))) := do
  let (b, dir) ← if b.wrapped.hierarchical then some (findExplicitFolder b (d.dirName name) true)
    else findExplicitInode b (d.dirName name) true
  match dir with
  | .ok (some c) => pure (b, some (.ok (some c)))
  | .error e => if e = .bucket .cacheMiss then d.cachedFile b name else pure (b, some (.error e))
  | .ok none => d.cachedFile b name

/-- `LookUpChild`, with the type cache's hint for the name (read only
without type-cache deprecation). The type cache's update after the
lookup is left out. -/
def lookUpChild (b : FastStatBucket) (typeHint : MetadataType) (name : ObjectName) :
    Option (FastStatBucket × Except LookUpError (Option LookUpCore)) :=
  if name.getLast? = some 10 then d.lookUpConflicting b name
  else do
    let (b, cached) ← if d.isEnableTypeCacheDeprecation ∧ d.metadataCacheTtlSecs ≠ 0 then d.lookUpCached b name
      else some (b, none)
    match cached with
    | some r => pure (b, r)
    | none => d.fetchCoreEntity b name (if d.isEnableTypeCacheDeprecation then .unknown else typeHint)

end DirInode

/-! ## Lookups the cache answers -/

section Cache

variable {b : FastStatBucket} {n : ObjectName}

/-- A negative entry answers for the name: it does not exist, whoever
asks. -/
theorem findExplicitInode_of_negative (h : b.cache.lookUp n = some none) (f : Bool) :
    findExplicitInode b n f = some (b, .ok none) := by
  simp only [findExplicitInode, FastStatBucket.statObject, h]
  rfl

theorem findExplicitInode_of_record {m : Object} (h : b.cache.lookUp n = some (some m)) (f : Bool) :
    findExplicitInode b n f = some (b, .ok (some ⟨n, if f ∧ m.generation = 0 then none else some m, none⟩)) := by
  simp only [findExplicitInode, FastStatBucket.statObject, h]
  rfl

/-- A lookup from the cache alone misses where the cache has no entry. -/
theorem findExplicitInode_of_miss (h : b.cache.lookUp n = none) :
    findExplicitInode b n true = some (b, .error (.bucket .cacheMiss)) := by
  simp only [findExplicitInode, FastStatBucket.statObject, h]
  rfl

/-- Asking GCS changes the cache at the name asked for only. -/
theorem statObjectFromGcs_lookUp {k : ObjectName} (hk : k ≠ n) :
    (b.statObjectFromGcs n).1.cache.lookUp k = b.cache.lookUp k := by
  have hentry : (b.statObjectFromGcs n).1.cache.entry k = b.cache.entry k := by
    unfold FastStatBucket.statObjectFromGcs
    split
    · rfl
    · split
      · exact (b.cache.entry_addNegativeEntry n k).trans (if_neg hk)
      · exact (b.cache.entry_insert n k _).trans (if_neg fun h => hk h.1)
  simp only [StatCacheBucketView.lookUp, hentry]

/-- A lookup that may ask GCS keeps every entry the cache holds, and
answers with an error only where the cache has no entry for the name and
the wrapped `StatObject` fails. -/
theorem findExplicitInode_fetch (b : FastStatBucket) (n : ObjectName) :
    ∃ b' x, findExplicitInode b n false = some (b', x) ∧ b'.wrapped = b.wrapped ∧
      (∀ k, (b.cache.lookUp k).isSome → b'.cache.lookUp k = b.cache.lookUp k) ∧
      ((b.cache.lookUp n).isSome ∨ b.statFails n = false → ∃ c, x = .ok c) := by
  cases hn : b.cache.lookUp n with
  | some x =>
    cases x with
    | none => exact ⟨b, _, findExplicitInode_of_negative hn false, rfl, fun _ _ => rfl, fun _ => ⟨_, rfl⟩⟩
    | some m => exact ⟨b, _, findExplicitInode_of_record hn false, rfl, fun _ _ => rfl, fun _ => ⟨_, rfl⟩⟩
  | none =>
    -- a miss: GCS answers for the name, and the other entries stay
    have hkeep : ∀ k, (b.cache.lookUp k).isSome → (b.statObjectFromGcs n).1.cache.lookUp k = b.cache.lookUp k := by
      intro k hk
      have hkn : k ≠ n := by
        rintro rfl
        rw [hn] at hk
        cases hk
      exact statObjectFromGcs_lookUp hkn
    cases hfail : b.statFails n
    · refine ⟨(b.statObjectFromGcs n).1, .ok ((b.wrapped.bucket.get n).map fun m => ⟨n, some m, none⟩), ?_,
        FastStatBucket.statObjectFromGcs_wrapped n, hkeep, fun _ => ⟨_, rfl⟩⟩
      simp only [findExplicitInode, FastStatBucket.statObject, hn]
      unfold FastStatBucket.statObjectFromGcs
      simp only [hfail, Bool.false_eq_true, if_false]
      cases b.wrapped.bucket.get n <;> rfl
    · -- the wrapped call fails, and the cache is left as it was
      refine ⟨b, .error (.bucket (.gcs .unavailable)), ?_, rfl, fun _ _ => rfl, fun h => ?_⟩
      · simp only [findExplicitInode, FastStatBucket.statObject, hn]
        unfold FastStatBucket.statObjectFromGcs
        simp only [hfail, if_true]
        rfl
      · simp at h

end Cache

/-- What a lookup found: the error, or the full name of the child, whose
last byte tells a directory from a file, or nothing. -/
def foundName (r : Option (FastStatBucket × Except LookUpError (Option LookUpCore))) :
    Option (Except LookUpError (Option ObjectName)) :=
  r.map fun r => r.2.map (Option.map LookUpCore.fullName)

namespace DirInode

variable (d : DirInode) {b : FastStatBucket} {name : ObjectName}

theorem cachedFile_of_record {m : Object} (h : b.cache.lookUp (d.fileName name) = some (some m)) :
    d.cachedFile b name =
      some (b, some (.ok (some ⟨d.fileName name, if m.generation = 0 then none else some m, none⟩))) := by
  simp only [cachedFile, findExplicitInode_of_record h, true_and]
  rfl

/-- Without the file's record in the cache, the fast path goes on. -/
theorem cachedFile_of_not_record (h : ∀ m, b.cache.lookUp (d.fileName name) ≠ some (some m)) :
    d.cachedFile b name = some (b, none) := by
  cases hf : b.cache.lookUp (d.fileName name) with
  | none =>
    simp only [cachedFile, findExplicitInode_of_miss hf]
    rfl
  | some x =>
    cases x with
    | none =>
      simp only [cachedFile, findExplicitInode_of_negative hf]
      rfl
    | some m => exact absurd hf (h m)

variable (hflat : b.wrapped.hierarchical = false)
include hflat

theorem lookUpCached_of_record {m : Object} (h : b.cache.lookUp (d.dirName name) = some (some m)) :
    d.lookUpCached b name =
      some (b, some (.ok (some ⟨d.dirName name, if m.generation = 0 then none else some m, none⟩))) := by
  simp only [lookUpCached, hflat, findExplicitInode_of_record h, true_and]
  rfl

/-- Without the directory's record in the cache, the fast path asks it
for the file's. -/
theorem lookUpCached_of_not_record (h : ∀ m, b.cache.lookUp (d.dirName name) ≠ some (some m)) :
    d.lookUpCached b name = d.cachedFile b name := by
  cases hd : b.cache.lookUp (d.dirName name) with
  | none =>
    simp only [lookUpCached, hflat, findExplicitInode_of_miss hd]
    rfl
  | some x =>
    cases x with
    | none =>
      simp only [lookUpCached, hflat, findExplicitInode_of_negative hd]
      rfl
    | some m => exact absurd hd (h m)

omit hflat in
/-- `LookUpChild` where the fast path answers. -/
theorem lookUpChild_of_cached (typeHint : MetadataType) {b' : FastStatBucket}
    {r : Except LookUpError (Option LookUpCore)} (hdep : d.isEnableTypeCacheDeprecation = true)
    (httl : d.metadataCacheTtlSecs ≠ 0) (hconf : name.getLast? ≠ some 10)
    (h : d.lookUpCached b name = some (b', some r)) : d.lookUpChild b typeHint name = some (b', r) := by
  simp only [lookUpChild, if_neg hconf, hdep, true_and, if_true, if_pos httl, h]
  rfl

omit hflat in
/-- `LookUpChild` where the fast path goes on, or is not taken: the
unified lookup. -/
theorem lookUpChild_of_goOn (typeHint : MetadataType) (hdep : d.isEnableTypeCacheDeprecation = true)
    (hconf : name.getLast? ≠ some 10)
    (h : d.metadataCacheTtlSecs ≠ 0 → d.lookUpCached b name = some (b, none)) :
    d.lookUpChild b typeHint name = d.fetchCoreEntity b name .unknown := by
  by_cases httl : d.metadataCacheTtlSecs = 0
  · simp only [lookUpChild, if_neg hconf, hdep, httl, ne_eq, not_true_eq_false, and_false, if_false,
      if_true]
    rfl
  · simp only [lookUpChild, if_neg hconf, hdep, true_and, if_true, if_pos httl, h httl]
    rfl

/-- The unified lookup on a flat bucket with explicit directories only,
once the file's lookup answered. -/
theorem fetchCoreEntity_unknown (himplicit : d.implicitDirs = false) {b' : FastStatBucket}
    {file : Except LookUpError (Option LookUpCore)} (hfile : findExplicitInode b (d.fileName name) false = some (b', file))
    (hw : b'.wrapped = b.wrapped) :
    d.fetchCoreEntity b name .unknown =
      (findExplicitInode b' (d.dirName name) false).map fun r => (r.1, preferDir file r.2) := by
  simp only [fetchCoreEntity, lookUpChildFile, hfile, Option.bind_eq_bind, Option.bind_some, lookUpChildDir,
    isBucketHierarchical, hw, hflat, Bool.and_false, Bool.false_eq_true, if_false, himplicit]
  cases findExplicitInode b' (d.dirName name) false <;> rfl

end DirInode

/-! ## Where the fast path and the unified lookup part -/

/-- A flat bucket holding the file "a" and the directory object "a/",
whose stat cache holds the file's entry only. -/
def fileAndDirBucket : FastStatBucket where
  cache := (⟨∅, []⟩ : StatCacheBucketView).insert [97] ⟨1, 1, [], 1⟩
  wrapped := ⟨⟨((∅ : AList fun _ : ObjectName => Object).insert [97] ⟨1, 1, [], 1⟩).insert [97, 47] ⟨2, 1, [], 1⟩, 3⟩,
    [], false⟩
  isTypeCacheDeprecated := true
  implicitDir := false
  statFails _ := false

/-- The bucket's root, with type-cache deprecation and a 60 s TTL. -/
def rootDir : DirInode := ⟨[], false, false, true, 60⟩

/-- With its entries agreeing with the bucket, the stat cache holds "a"
but not "a/": `LookUpChild("a")` returns the file, where the unified
lookup on the bucket returns the directory "a/". -/
theorem cached_file_hides_directory :
    Agrees fileAndDirBucket.cache fileAndDirBucket.wrapped.bucket ∧
      (∃ b c, rootDir.lookUpChild fileAndDirBucket .unknown [97] = some (b, .ok (some c)) ∧
        childKind (some c) = .file) ∧
      (∃ b c, rootDir.fetchCoreEntity { fileAndDirBucket with cache := ⟨∅, []⟩ } [97] .unknown =
          some (b, .ok (some c)) ∧ childKind (some c) = .directory) := by
  refine ⟨Agrees.insert (fun _ _ h _ => absurd h (by simp [StatCacheBucketView.entry])) rfl,
    ⟨_, _, rfl, rfl⟩, ⟨_, _, rfl, rfl⟩⟩

/-- **The fast path of `LookUpChild` finds what the unified lookup
finds**, the same child or the same error, on a flat bucket with
explicit directories only and whatever the type hint, unless the stat
cache holds a record for the file's name and no entry for the
directory's, or it holds the directory's record, no entry for the file's
name, and the wrapped `StatObject` of the file's name fails: a cached
directory is the one the unified lookup prefers once the file's lookup
has answered, a directory cached as absent leaves the file, and
otherwise the fast path goes on to the unified lookup. -/
theorem lookUpChild_fast_path_agrees (d : DirInode) (b : FastStatBucket) (typeHint : MetadataType)
    (name : ObjectName) (hdep : d.isEnableTypeCacheDeprecation = true)
    (hflat : b.wrapped.hierarchical = false) (himplicit : d.implicitDirs = false)
    (hconf : name.getLast? ≠ some 10)
    (hcache : (b.cache.lookUp (d.dirName name)).isSome ∨
      ∀ m, b.cache.lookUp (d.fileName name) ≠ some (some m))
    (hstat : ∀ m, b.cache.lookUp (d.dirName name) = some (some m) →
      (b.cache.lookUp (d.fileName name)).isSome ∨ b.statFails (d.fileName name) = false) :
    foundName (d.lookUpChild b typeHint name) = foundName (d.fetchCoreEntity b name .unknown) := by
  by_cases httl : d.metadataCacheTtlSecs = 0
  · rw [d.lookUpChild_of_goOn typeHint hdep hconf fun h => absurd httl h]
  cases hd : b.cache.lookUp (d.dirName name) with
  | none =>
    -- a miss for the directory, so by `hcache` no record of the file
    have hfile := hcache.resolve_left (by rw [hd]; decide)
    have hnotdir : ∀ m, b.cache.lookUp (d.dirName name) ≠ some (some m) := fun m h => by
      rw [hd] at h
      cases h
    rw [d.lookUpChild_of_goOn typeHint hdep hconf fun _ =>
      (d.lookUpCached_of_not_record hflat hnotdir).trans (d.cachedFile_of_not_record hfile)]
  | some x =>
    cases x with
    | some m =>
      -- the unified lookup finds the cached directory after the file's
      -- lookup, which answers by `hstat` and keeps the directory's entry
      obtain ⟨b', file, hfile, hw, hkeep, hok⟩ := findExplicitInode_fetch b (d.fileName name)
      obtain ⟨c, rfl⟩ := hok (hstat m hd)
      have hd' : b'.cache.lookUp (d.dirName name) = some (some m) := (hkeep _ (by rw [hd]; rfl)).trans hd
      rw [d.lookUpChild_of_cached typeHint hdep httl hconf (d.lookUpCached_of_record hflat hd),
        d.fetchCoreEntity_unknown hflat himplicit hfile hw, findExplicitInode_of_record hd']
      rfl
    | none =>
      -- the directory cached as absent: the file, where its record is cached
      have hnotdir : ∀ m, b.cache.lookUp (d.dirName name) ≠ some (some m) := fun m h => by
        rw [hd] at h
        cases h
      by_cases hf : ∃ m, b.cache.lookUp (d.fileName name) = some (some m)
      · obtain ⟨m, hf⟩ := hf
        rw [d.lookUpChild_of_cached typeHint hdep httl hconf
            ((d.lookUpCached_of_not_record hflat hnotdir).trans (d.cachedFile_of_record hf)),
          d.fetchCoreEntity_unknown hflat himplicit (findExplicitInode_of_record hf false) rfl,
          findExplicitInode_of_negative hd]
        rfl
      · rw [d.lookUpChild_of_goOn typeHint hdep hconf fun _ =>
          (d.lookUpCached_of_not_record hflat hnotdir).trans
            (d.cachedFile_of_not_record fun m h => hf ⟨m, h⟩)]

/-- The bucket of `fileAndDirBucket` whose stat cache holds the
directory's record instead of the file's. -/
def dirCachedBucket : FastStatBucket :=
  { fileAndDirBucket with cache := (⟨∅, []⟩ : StatCacheBucketView).insert [97, 47] ⟨2, 1, [], 1⟩ }

/-- With the directory "a/" cached, both lookups of "a" find it. -/
theorem cached_directory_found_by_both :
    foundName (rootDir.lookUpChild dirCachedBucket .unknown [97]) =
        foundName (rootDir.fetchCoreEntity dirCachedBucket [97] .unknown) ∧
      foundName (rootDir.lookUpChild dirCachedBucket .unknown [97]) = some (.ok (some [97, 47])) :=
  ⟨lookUpChild_fast_path_agrees rootDir dirCachedBucket .unknown [97] rfl rfl rfl (by decide) (.inl rfl)
    (fun _ _ => .inr rfl), rfl⟩

-- Where the wrapped `StatObject` of the uncached file "a" fails, the
-- unified lookup returns that error, and the fast path the cached
-- directory.
example :
    foundName (rootDir.lookUpChild { dirCachedBucket with statFails := fun n => n == [97] } .unknown [97]) =
        some (.ok (some [97, 47])) ∧
      foundName (rootDir.fetchCoreEntity { dirCachedBucket with statFails := fun n => n == [97] } [97] .unknown) =
        some (.error (.bucket (.gcs .unavailable))) := ⟨rfl, rfl⟩

end Inode

end GcsFuse
