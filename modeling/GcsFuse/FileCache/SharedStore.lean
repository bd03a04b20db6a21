import GcsFuse.FileCache.SharedChunkCacheManager
import GcsFuse.Gcsx.SharedChunkCache
import GcsFuse.SccGc.Spec
import GcsFuse.Common.Run
/-!
# The shared chunk cache directory, its mounts and its collector

Every mount that shares the cache directory reads chunks by their paths
(`SharedChunkCacheManager`) and downloads a missing one with
`downloadChunk` (`internal/gcsx/shared_chunk_cache_reader.go`). Several
downloads, of one mount or of many, run at once, and `gcsfuse-scc-gc`
(`tools/gcsfuse-scc-gc/main.go`) removes `.bak` and `.tmp` files and
renames chunks to their `.bak` while they run. Each of these calls is one
atomic step on the directory, so a list of steps is one interleaving.

A download is split where it touches the directory: the `O_EXCL` create of
its temporary path, each write `io.Copy` makes to the file, the cleanup
`os.Remove` of its error paths, and the `os.Rename` to the chunk's path,
taken only when the copy wrote the whole range. A file goes on holding
its bytes for the process that has it open when its path is removed. A
mount may die at any point and leave its temporary file behind.

`rand.Uint64` is modelled as a temporary name that no download in
progress holds; `O_EXCL` handles a name some file still has. Directories
are left out: `MkdirAll`, its `ENOENT` retry and the collector's removal of
empty directories only decide whether a create fails.

**Every file at a chunk's path holds the bytes of a chunk with that path**,
of a generation whose download started (`Inv`), in every state any
interleaving reaches from the empty directory (`inv_of_run`). `GcsFuse.FileCache.SharedChunkFiles` reads the chunk
back from its path.
-/

namespace GcsFuse

namespace FileCache

open SharedChunkCacheManager SccGc Gcsx.SharedChunkCacheReader

namespace SharedStore

/-- A generation of an object. -/
@[ext] structure ObjectId where
  bucketName : String
  objectName : String
  generation : ℤ
  deriving DecidableEq, Repr

/-- The directory the mounts and the collector share: the file at each
path, and the bytes of each file. -/
structure Disk where
  files : List String → Option ℕ
  bytes : ℕ → List UInt8
  nextFile : ℕ

/-- A `downloadChunk` in progress: its chunk, the file it created at its
temporary path, and how many bytes `io.Copy` wrote to it. -/
structure Download where
  object : ObjectId
  chunkIndex : ℕ
  file : Option ℕ
  written : ℕ

namespace Disk

/-- `os.Remove` of a file. -/
def remove (d : Disk) (p : List String) : Disk := { d with files := Function.update d.files p none }

/-- `os.Rename`: the file at `p` moves to `q`, in place of any file
there; `none` is `ENOENT`. -/
def rename (d : Disk) (p q : List String) : Option Disk :=
  (d.files p).map fun j => { d with files := Function.update (Function.update d.files p none) q (some j) }

/-- `os.OpenFile` with `O_CREATE|O_EXCL`: a new empty file at `p`;
`none` is `EEXIST`. -/
def createExcl (d : Disk) (p : List String) : Option Disk :=
  if d.files p = none then
    some { files := Function.update d.files p (some d.nextFile)
           bytes := Function.update d.bytes d.nextFile []
           nextFile := d.nextFile + 1 }
  else none

/-- A write at the end of file `i`. -/
def append (d : Disk) (i : ℕ) (bs : List UInt8) : Disk := { d with bytes := Function.update d.bytes i (d.bytes i ++ bs) }

end Disk

/-- The directory, and the downloads in progress by their temporary
paths. -/
structure Store where
  disk : Disk
  downloads : List String → Option Download

/-- The empty cache directory, before any mount. -/
def Store.empty : Store := ⟨⟨fun _ => none, fun _ => [], 0⟩, fun _ => none⟩

/-- A download ends. -/
def Store.drop (s : Store) (tmp : List String) : Store := { s with downloads := Function.update s.downloads tmp none }

/-- A step on the directory. -/
inductive Action
  /-- A read found no file at a chunk's path and starts `downloadChunk`;
  `random` is what `rand.Uint64` gave. -/
  | start (object : ObjectId) (chunkIndex : ℕ) (random : UInt64)
  /-- `os.OpenFile` of the temporary path with `O_CREATE|O_EXCL`. -/
  | create (tmpPath : List String)
  /-- That create fails: `EEXIST`, `ENOENT` twice, or another error. -/
  | createFails (tmpPath : List String)
  /-- `io.Copy` writes the next `n` bytes the bucket's reader of the
  chunk's range delivers. -/
  | copy (tmpPath : List String) (n : ℕ)
  /-- A failure after the create, of the reader, the copy, `Close` or
  `Rename`: `os.Remove` of the temporary path. -/
  | fail (tmpPath : List String)
  /-- The copy wrote the whole range: `os.Rename` to the chunk's path. -/
  | rename (tmpPath : List String)
  /-- The mount dies; its temporary file stays. -/
  | abandon (tmpPath : List String)
  /-- The collector's `os.Remove` of a `.bak` or `.tmp` file. -/
  | remove (path : List String)
  /-- The collector's `os.Rename` of a `.bin` file to its `.bak`. -/
  | expire (path : List String)

variable (sha256 : String → String) (m : SharedChunkCacheManager) (content : ObjectId → List UInt8)

/-- The path of chunk `k` of `x`. -/
def chunkPath (x : ObjectId) (k : ℕ) : List String :=
  m.getChunkPath sha256 x.bucketName x.objectName x.generation k

/-- `GenerateTmpPath` for chunk `k` of `x`. -/
def tmpPathOf (x : ObjectId) (k : ℕ) (random : UInt64) : List String :=
  m.generateTmpPath sha256 x.bucketName x.objectName x.generation k random

/-- `chunkEnd` of `ReadAt`, for chunk `k` of `x`. -/
def chunkEnd (x : ObjectId) (k : ℕ) : ℕ := min (k * m.chunkSize + m.chunkSize) (content x).length

/-- A step: `none` where the call cannot happen from this state. -/
def step (s : Store) : Action → Option Store
  | .start x k random =>
    let tmp := tmpPathOf sha256 m x k random
    if s.disk.files (chunkPath sha256 m x k) = none ∧ s.downloads tmp = none then
      some { s with downloads := Function.update s.downloads tmp (some ⟨x, k, none, 0⟩) }
    else none
  | .create tmp =>
    match s.downloads tmp with
    | some d =>
      if d.file = none then
        (s.disk.createExcl tmp).map fun disk =>
          ⟨disk, Function.update s.downloads tmp (some { d with file := some s.disk.nextFile })⟩
      else none
    | none => none
  | .createFails tmp =>
    match s.downloads tmp with
    | some d => if d.file = none then some (s.drop tmp) else none
    | none => none
  | .copy tmp n =>
    match s.downloads tmp with
    | some ⟨x, k, some i, written⟩ =>
      let delivered := ((chunkBytes (content x) m.chunkSize k).drop written).take n
      some ⟨s.disk.append i delivered, Function.update s.downloads tmp (some ⟨x, k, some i, written + delivered.length⟩)⟩
    | _ => none
  | .fail tmp =>
    match s.downloads tmp with
    | some ⟨_, _, some _, _⟩ => some ⟨s.disk.remove tmp, (s.drop tmp).downloads⟩
    | _ => none
  | .rename tmp =>
    match s.downloads tmp with
    | some ⟨x, k, some _, written⟩ =>
      if written = chunkEnd m content x k - k * m.chunkSize then
        match s.disk.rename tmp (chunkPath sha256 m x k) with
        -- `ENOENT`: the collector took the file, and the cleanup finds nothing
        | none => some (s.drop tmp)
        | some disk => some ⟨disk, (s.drop tmp).downloads⟩
      else none
    | _ => none
  | .abandon tmp =>
    match s.downloads tmp with
    | some _ => some (s.drop tmp)
    | none => none
  | .remove p =>
    if ext p = ".bak" ∨ ext p = ".tmp" then some { s with disk := s.disk.remove p } else none
  | .expire p =>
    if ext p = ".bin" then
      match s.disk.rename p (bakPath p) with
      | none => some s
      | some disk => some { s with disk := disk }
    else none

/-! ## The names the collector sees -/

/-- The extension of a path whose last name ends in a suffix that has
one. -/
theorem ext_concat_append {l : List String} {name suffix : String}
    (hs : dotSuffix suffix.toList = some suffix.toList) : ext (l ++ [name ++ suffix]) = suffix := by
  rw [ext, List.getLast?_concat, Option.getD_some, String.toList_append, dotSuffix_append hs, Option.getD_some,
    String.ofList_toList]

/-- The collector takes a chunk's file for a chunk. -/
theorem ext_chunkPath (x : ObjectId) (k : ℕ) : ext (chunkPath sha256 m x k) = ".bin" := by
  simp only [chunkPath, getChunkPath, chunkFileName]
  exact ext_concat_append (by decide)

/-- The collector takes a download's temporary file for a temporary
file. -/
theorem ext_tmpPathOf (x : ObjectId) (k : ℕ) (random : UInt64) : ext (tmpPathOf sha256 m x k random) = ".tmp" := by
  simp only [tmpPathOf, generateTmpPath, getChunkPath, List.modifyLast_concat]
  exact ext_concat_append (by decide)

theorem ne_chunkPath {p : List String} (hp : ext p ≠ ".bin") (x : ObjectId) (k : ℕ) : p ≠ chunkPath sha256 m x k := by
  rintro rfl
  exact hp (ext_chunkPath sha256 m x k)

/-- The `.bak` of a chunk's file is a `.bak` file. -/
theorem ext_bakPath_of_bin {p : List String} (hp : ext p = ".bin") : ext (bakPath p) = ".bak" := by
  apply ext_bakPath_of_ne_nil
  rintro rfl
  exact absurd hp (by decide)

/-! ## What each step does -/

theorem update_none_eq_some {α β : Type} [DecidableEq α] {f : α → Option β} {a a' : α} {b : β}
    (h : Function.update f a none a' = some b) : a' ≠ a ∧ f a' = some b := by
  by_cases ha : a' = a
  · subst ha
    rw [Function.update_self] at h
    cases h
  · rw [Function.update_of_ne ha] at h
    exact ⟨ha, h⟩

theorem update_some_eq_some {α β : Type} [DecidableEq α] {f : α → Option β} {a a' : α} {b b' : β}
    (h : Function.update f a (some b) a' = some b') : (a' = a ∧ b = b') ∨ (a' ≠ a ∧ f a' = some b') := by
  by_cases ha : a' = a
  · subst ha
    rw [Function.update_self, Option.some.injEq] at h
    exact .inl ⟨rfl, h⟩
  · rw [Function.update_of_ne ha] at h
    exact .inr ⟨ha, h⟩

theorem Disk.rename_eq_some {d d' : Disk} {p q : List String} (h : d.rename p q = some d') :
    ∃ j, d.files p = some j ∧ d' = { d with files := Function.update (Function.update d.files p none) q (some j) } := by
  unfold Disk.rename at h
  cases hp : d.files p with
  | none => rw [hp] at h; cases h
  | some j =>
    rw [hp, Option.map_some, Option.some.injEq] at h
    exact ⟨j, rfl, h.symm⟩

theorem Disk.createExcl_eq_some {d d' : Disk} {p : List String} (h : d.createExcl p = some d') :
    d.files p = none ∧ d' = { files := Function.update d.files p (some d.nextFile)
                              bytes := Function.update d.bytes d.nextFile []
                              nextFile := d.nextFile + 1 } := by
  unfold Disk.createExcl at h
  split_ifs at h with hp
  exact ⟨hp, (Option.some.inj h).symm⟩

section Steps

variable {sha256 m content} {s s' : Store}

theorem step_start {x : ObjectId} {k : ℕ} {random : UInt64}
    (h : step sha256 m content s (.start x k random) = some s') :
    s.disk.files (chunkPath sha256 m x k) = none ∧ s.downloads (tmpPathOf sha256 m x k random) = none ∧
      s' = { s with downloads := Function.update s.downloads (tmpPathOf sha256 m x k random) (some ⟨x, k, none, 0⟩) } := by
  dsimp only [step] at h
  split_ifs at h with hg
  exact ⟨hg.1, hg.2, (Option.some.inj h).symm⟩

theorem step_create {tmp : List String} (h : step sha256 m content s (.create tmp) = some s') :
    ∃ d disk, s.downloads tmp = some d ∧ d.file = none ∧ s.disk.createExcl tmp = some disk ∧
      s' = ⟨disk, Function.update s.downloads tmp (some { d with file := some s.disk.nextFile })⟩ := by
  dsimp only [step] at h
  cases hd : s.downloads tmp with
  | none => rw [hd] at h; cases h
  | some d =>
    rw [hd] at h
    dsimp only at h
    split_ifs at h with hfile
    obtain ⟨disk, hdisk, rfl⟩ := Option.map_eq_some_iff.mp h
    exact ⟨d, disk, rfl, hfile, hdisk, rfl⟩

/-- The three steps that only end a download: `createFails`, `abandon`,
and a `rename` that meets `ENOENT`. -/
theorem step_createFails {tmp : List String} (h : step sha256 m content s (.createFails tmp) = some s') :
    s' = s.drop tmp := by
  dsimp only [step] at h
  cases hd : s.downloads tmp with
  | none => rw [hd] at h; cases h
  | some d =>
    rw [hd] at h
    dsimp only at h
    split_ifs at h
    exact (Option.some.inj h).symm

theorem step_abandon {tmp : List String} (h : step sha256 m content s (.abandon tmp) = some s') :
    s' = s.drop tmp := by
  dsimp only [step] at h
  cases hd : s.downloads tmp with
  | none => rw [hd] at h; cases h
  | some d =>
    rw [hd] at h
    exact (Option.some.inj h).symm

theorem step_copy {tmp : List String} {n : ℕ} (h : step sha256 m content s (.copy tmp n) = some s') :
    ∃ x k i written, s.downloads tmp = some ⟨x, k, some i, written⟩ ∧
      s' = ⟨s.disk.append i (((chunkBytes (content x) m.chunkSize k).drop written).take n),
        Function.update s.downloads tmp
          (some ⟨x, k, some i, written + (((chunkBytes (content x) m.chunkSize k).drop written).take n).length⟩)⟩ := by
  dsimp only [step] at h
  cases hd : s.downloads tmp with
  | none => rw [hd] at h; cases h
  | some d =>
    obtain ⟨x, k, _ | i, written⟩ := d
    · rw [hd] at h; cases h
    · rw [hd] at h
      exact ⟨x, k, i, written, rfl, (Option.some.inj h).symm⟩

theorem step_fail {tmp : List String} (h : step sha256 m content s (.fail tmp) = some s') :
    ∃ d i, s.downloads tmp = some d ∧ d.file = some i ∧ s' = ⟨s.disk.remove tmp, (s.drop tmp).downloads⟩ := by
  dsimp only [step] at h
  cases hd : s.downloads tmp with
  | none => rw [hd] at h; cases h
  | some d =>
    obtain ⟨x, k, _ | i, written⟩ := d
    · rw [hd] at h; cases h
    · rw [hd] at h
      exact ⟨_, i, rfl, rfl, (Option.some.inj h).symm⟩

theorem step_rename {tmp : List String} (h : step sha256 m content s (.rename tmp) = some s') :
    ∃ x k i, s.downloads tmp = some ⟨x, k, some i, chunkEnd m content x k - k * m.chunkSize⟩ ∧
      (s' = s.drop tmp ∨
        ∃ disk, s.disk.rename tmp (chunkPath sha256 m x k) = some disk ∧ s' = ⟨disk, (s.drop tmp).downloads⟩) := by
  dsimp only [step] at h
  cases hd : s.downloads tmp with
  | none => rw [hd] at h; cases h
  | some d =>
    obtain ⟨x, k, _ | i, written⟩ := d
    · rw [hd] at h; cases h
    · rw [hd] at h
      dsimp only at h
      split_ifs at h with hw
      subst hw
      refine ⟨x, k, i, rfl, ?_⟩
      cases hr : s.disk.rename tmp (chunkPath sha256 m x k) with
      | none =>
        rw [hr] at h
        exact .inl (Option.some.inj h).symm
      | some disk =>
        rw [hr] at h
        exact .inr ⟨disk, rfl, (Option.some.inj h).symm⟩

theorem step_remove {p : List String} (h : step sha256 m content s (.remove p) = some s') :
    (ext p = ".bak" ∨ ext p = ".tmp") ∧ s' = { s with disk := s.disk.remove p } := by
  dsimp only [step] at h
  split_ifs at h with hp
  exact ⟨hp, (Option.some.inj h).symm⟩

theorem step_expire {p : List String} (h : step sha256 m content s (.expire p) = some s') :
    ext p = ".bin" ∧ (s' = s ∨ ∃ disk, s.disk.rename p (bakPath p) = some disk ∧ s' = { s with disk := disk }) := by
  dsimp only [step] at h
  split_ifs at h with hp
  refine ⟨hp, ?_⟩
  cases hr : s.disk.rename p (bakPath p) with
  | none =>
    rw [hr] at h
    exact .inl (Option.some.inj h).symm
  | some disk =>
    rw [hr] at h
    exact .inr ⟨disk, rfl, (Option.some.inj h).symm⟩

end Steps

/-! ## The invariant -/

/-- The bytes of the chunk a download fetches. -/
def downloadRange (d : Download) : List UInt8 := chunkBytes (content d.object) m.chunkSize d.chunkIndex

/-- **The invariant of the shared directory**, for the generations
`downloaded` whose downloads have started. -/
structure Inv (downloaded : ObjectId → Prop) (s : Store) : Prop where
  /-- A file at a chunk's path holds the bytes of a downloaded chunk with
  that path. -/
  chunk : ∀ x k i, s.disk.files (chunkPath sha256 m x k) = some i →
    ∃ x' k', downloaded x' ∧ chunkPath sha256 m x' k' = chunkPath sha256 m x k ∧
      s.disk.bytes i = chunkBytes (content x') m.chunkSize k'
  started : ∀ tmp d, s.downloads tmp = some d → downloaded d.object
  file_lt : ∀ p i, s.disk.files p = some i → i < s.disk.nextFile
  download_lt : ∀ tmp d i, s.downloads tmp = some d → d.file = some i → i < s.disk.nextFile
  tmp_ext : ∀ tmp d, s.downloads tmp = some d → ext tmp = ".tmp"
  unstarted : ∀ tmp d, s.downloads tmp = some d → d.file = none → d.written = 0
  /-- A download's file is at its temporary path, or nowhere. -/
  owned : ∀ tmp d i, s.downloads tmp = some d → d.file = some i → ∀ p, s.disk.files p = some i → p = tmp
  /-- The file at a download's temporary path is its own, once it has one. -/
  at_tmp : ∀ tmp d j, s.downloads tmp = some d → s.disk.files tmp = some j → d.file = none ∨ d.file = some j
  file_inj : ∀ tmp tmp' d d' i, s.downloads tmp = some d → s.downloads tmp' = some d' → d.file = some i →
    d'.file = some i → tmp = tmp'
  /-- A download's file holds the front of its chunk. -/
  written : ∀ tmp d i, s.downloads tmp = some d → d.file = some i →
    s.disk.bytes i = (downloadRange m content d).take d.written ∧ d.written ≤ (downloadRange m content d).length

theorem take_length_take {α : Type} (l : List α) (n : ℕ) : l.take (l.take n).length = l.take n := by
  rw [List.length_take]
  rcases le_total n l.length with h | h
  · rw [Nat.min_eq_left h]
  · rw [Nat.min_eq_right h, List.take_length, List.take_of_length_le h]

section Invariant

variable {sha256 m content} {downloaded : ObjectId → Prop} {s : Store}

theorem Inv.empty : Inv sha256 m content downloaded Store.empty where
  chunk _ _ _ h := nomatch h
  started _ _ h := nomatch h
  file_lt _ _ h := nomatch h
  download_lt _ _ _ h := nomatch h
  tmp_ext _ _ h := nomatch h
  unstarted _ _ h := nomatch h
  owned _ _ _ h := nomatch h
  at_tmp _ _ _ h := nomatch h
  file_inj _ _ _ _ _ h := nomatch h
  written _ _ _ h := nomatch h

/-- A download that ends keeps the invariant. -/
theorem Inv.drop (hi : Inv sha256 m content downloaded s) (tmp : List String) : Inv sha256 m content downloaded (s.drop tmp) where
  chunk := hi.chunk
  started t d hd := hi.started t d (update_none_eq_some hd).2
  file_lt := hi.file_lt
  download_lt t d i hd := hi.download_lt t d i (update_none_eq_some hd).2
  tmp_ext t d hd := hi.tmp_ext t d (update_none_eq_some hd).2
  unstarted t d hd := hi.unstarted t d (update_none_eq_some hd).2
  owned t d i hd := hi.owned t d i (update_none_eq_some hd).2
  at_tmp t d j hd := hi.at_tmp t d j (update_none_eq_some hd).2
  file_inj t t' d d' i hd hd' := hi.file_inj t t' d d' i (update_none_eq_some hd).2 (update_none_eq_some hd').2
  written t d i hd := hi.written t d i (update_none_eq_some hd).2

/-- `os.Remove` of any path keeps the invariant. -/
theorem Inv.remove (hi : Inv sha256 m content downloaded s) (p : List String) :
    Inv sha256 m content downloaded ⟨s.disk.remove p, s.downloads⟩ where
  chunk x k i hf := hi.chunk x k i (update_none_eq_some hf).2
  started := hi.started
  file_lt q i hf := hi.file_lt q i (update_none_eq_some hf).2
  download_lt := hi.download_lt
  tmp_ext := hi.tmp_ext
  unstarted := hi.unstarted
  owned t d i hd hdi q hf := hi.owned t d i hd hdi q (update_none_eq_some hf).2
  at_tmp t d j hd hf := hi.at_tmp t d j hd (update_none_eq_some hf).2
  file_inj := hi.file_inj
  written := hi.written

/-- A file placed at a path no download holds, no download's own file and
the bytes of a chunk wherever the path is a chunk's, keeps the invariant:
the target of `os.Rename`. -/
theorem Inv.put (hi : Inv sha256 m content downloaded s) {q : List String} {j : ℕ} (hj : j < s.disk.nextFile)
    (hchunk : ∀ x k, chunkPath sha256 m x k = q →
      ∃ x' k', downloaded x' ∧ chunkPath sha256 m x' k' = q ∧ s.disk.bytes j = chunkBytes (content x') m.chunkSize k')
    (htmp : ∀ tmp d, s.downloads tmp = some d → tmp ≠ q) (hown : ∀ tmp d, s.downloads tmp = some d → d.file ≠ some j) :
    Inv sha256 m content downloaded ⟨{ s.disk with files := Function.update s.disk.files q (some j) }, s.downloads⟩ where
  chunk x k i hf := by
    rcases update_some_eq_some hf with ⟨hq, rfl⟩ | ⟨-, hf⟩
    · obtain ⟨x', k', hx', hpath, hbytes⟩ := hchunk x k hq
      exact ⟨x', k', hx', hpath.trans hq.symm, hbytes⟩
    · exact hi.chunk x k i hf
  started := hi.started
  file_lt p i hf := by
    rcases update_some_eq_some hf with ⟨-, rfl⟩ | ⟨-, hf⟩
    · exact hj
    · exact hi.file_lt p i hf
  download_lt := hi.download_lt
  tmp_ext := hi.tmp_ext
  unstarted := hi.unstarted
  owned t d i hd hdi p hf := by
    rcases update_some_eq_some hf with ⟨-, rfl⟩ | ⟨-, hf⟩
    · exact absurd hdi (hown t d hd)
    · exact hi.owned t d i hd hdi p hf
  at_tmp t d j' hd hf := by
    rcases update_some_eq_some hf with ⟨ht, -⟩ | ⟨-, hf⟩
    · exact absurd ht (htmp t d hd)
    · exact hi.at_tmp t d j' hd hf
  file_inj := hi.file_inj
  written := hi.written

/-- A download starts with no file and nothing written. -/
theorem Inv.start (hi : Inv sha256 m content downloaded s) (x : ObjectId) (k : ℕ) (random : UInt64)
    (hx : downloaded x) :
    Inv sha256 m content downloaded
      { s with downloads := Function.update s.downloads (tmpPathOf sha256 m x k random) (some ⟨x, k, none, 0⟩) } where
  chunk := hi.chunk
  started t d hd := by
    rcases update_some_eq_some hd with ⟨-, rfl⟩ | ⟨-, hd⟩
    · exact hx
    · exact hi.started t d hd
  file_lt := hi.file_lt
  download_lt t d i hd hdi := by
    rcases update_some_eq_some hd with ⟨-, rfl⟩ | ⟨-, hd⟩
    · cases hdi
    · exact hi.download_lt t d i hd hdi
  tmp_ext t d hd := by
    rcases update_some_eq_some hd with ⟨rfl, -⟩ | ⟨-, hd⟩
    · exact ext_tmpPathOf sha256 m x k random
    · exact hi.tmp_ext t d hd
  unstarted t d hd := by
    rcases update_some_eq_some hd with ⟨-, rfl⟩ | ⟨-, hd⟩
    · exact fun _ => rfl
    · exact hi.unstarted t d hd
  owned t d i hd hdi := by
    rcases update_some_eq_some hd with ⟨-, rfl⟩ | ⟨-, hd⟩
    · cases hdi
    · exact hi.owned t d i hd hdi
  at_tmp t d j hd hf := by
    rcases update_some_eq_some hd with ⟨-, rfl⟩ | ⟨-, hd⟩
    · exact .inl rfl
    · exact hi.at_tmp t d j hd hf
  file_inj t t' d d' i hd hd' hdi hdi' := by
    rcases update_some_eq_some hd with ⟨-, rfl⟩ | ⟨-, hd⟩
    · cases hdi
    rcases update_some_eq_some hd' with ⟨-, rfl⟩ | ⟨-, hd'⟩
    · cases hdi'
    exact hi.file_inj t t' d d' i hd hd' hdi hdi'
  written t d i hd hdi := by
    rcases update_some_eq_some hd with ⟨-, rfl⟩ | ⟨-, hd⟩
    · cases hdi
    · exact hi.written t d i hd hdi

/-- `O_EXCL` creates a new, empty file at the download's free temporary
path. -/
theorem Inv.create (hi : Inv sha256 m content downloaded s) {tmp : List String} {d : Download} (hd : s.downloads tmp = some d)
    (hfile : d.file = none) (hfree : s.disk.files tmp = none) :
    Inv sha256 m content downloaded
      ⟨{ files := Function.update s.disk.files tmp (some s.disk.nextFile)
         bytes := Function.update s.disk.bytes s.disk.nextFile []
         nextFile := s.disk.nextFile + 1 },
        Function.update s.downloads tmp (some { d with file := some s.disk.nextFile })⟩ where
  chunk x k i hf := by
    rcases update_some_eq_some hf with ⟨hq, -⟩ | ⟨-, hf⟩
    · -- a temporary path is no chunk's
      exact absurd (hi.tmp_ext tmp d hd) (hq ▸ by rw [ext_chunkPath]; decide)
    · obtain ⟨x', k', hx', hpath, hbytes⟩ := hi.chunk x k i hf
      exact ⟨x', k', hx', hpath, by dsimp only; rw [Function.update_of_ne (hi.file_lt _ i hf).ne, hbytes]⟩
  started t d' hd' := by
    rcases update_some_eq_some hd' with ⟨-, rfl⟩ | ⟨-, hd'⟩
    · exact hi.started tmp d hd
    · exact hi.started t d' hd'
  file_lt p i hf := by
    rcases update_some_eq_some hf with ⟨-, rfl⟩ | ⟨-, hf⟩
    · exact Nat.lt_succ_self _
    · exact Nat.lt_succ_of_lt (hi.file_lt p i hf)
  download_lt t d' i hd' hdi := by
    rcases update_some_eq_some hd' with ⟨-, rfl⟩ | ⟨-, hd'⟩
    · obtain rfl := Option.some.inj hdi
      exact Nat.lt_succ_self _
    · exact Nat.lt_succ_of_lt (hi.download_lt t d' i hd' hdi)
  tmp_ext t d' hd' := by
    rcases update_some_eq_some hd' with ⟨rfl, -⟩ | ⟨-, hd'⟩
    · exact hi.tmp_ext t d hd
    · exact hi.tmp_ext t d' hd'
  unstarted t d' hd' := by
    rcases update_some_eq_some hd' with ⟨-, rfl⟩ | ⟨-, hd'⟩
    · exact nofun
    · exact hi.unstarted t d' hd'
  owned t d' i hd' hdi p hf := by
    rcases update_some_eq_some hd' with ⟨rfl, rfl⟩ | ⟨-, hd'⟩
    · -- the new file is only at the temporary path
      obtain rfl := Option.some.inj hdi
      rcases update_some_eq_some hf with ⟨rfl, -⟩ | ⟨-, hf⟩
      · rfl
      · exact absurd (hi.file_lt p _ hf) (Nat.lt_irrefl _)
    · rcases update_some_eq_some hf with ⟨-, rfl⟩ | ⟨-, hf⟩
      · exact absurd (hi.download_lt t d' _ hd' hdi) (Nat.lt_irrefl _)
      · exact hi.owned t d' i hd' hdi p hf
  at_tmp t d' j hd' hf := by
    rcases update_some_eq_some hd' with ⟨rfl, rfl⟩ | ⟨ht, hd'⟩
    · dsimp only at hf
      rw [Function.update_self, Option.some.injEq] at hf
      exact .inr (congrArg some hf)
    · dsimp only at hf
      rw [Function.update_of_ne ht] at hf
      exact hi.at_tmp t d' j hd' hf
  file_inj t t' d₁ d₂ i hd₁ hd₂ h₁ h₂ := by
    rcases update_some_eq_some hd₁ with ⟨rfl, rfl⟩ | ⟨-, hold₁⟩ <;>
      rcases update_some_eq_some hd₂ with ⟨rfl, rfl⟩ | ⟨-, hold₂⟩
    · rfl
    · obtain rfl := Option.some.inj h₁
      exact absurd (hi.download_lt t' d₂ _ hold₂ h₂) (Nat.lt_irrefl _)
    · obtain rfl := Option.some.inj h₂
      exact absurd (hi.download_lt t d₁ _ hold₁ h₁) (Nat.lt_irrefl _)
    · exact hi.file_inj t t' d₁ d₂ i hold₁ hold₂ h₁ h₂
  written t d' i hd' hdi := by
    rcases update_some_eq_some hd' with ⟨-, rfl⟩ | ⟨-, hd'⟩
    · -- nothing is written yet
      obtain rfl := Option.some.inj hdi
      have hzero : d.written = 0 := hi.unstarted tmp d hd hfile
      simp only [Function.update_self, hzero, List.take_zero, Nat.zero_le, and_self]
    · obtain ⟨hbytes, hle⟩ := hi.written t d' i hd' hdi
      exact ⟨by dsimp only; rw [Function.update_of_ne (hi.download_lt t d' i hd' hdi).ne, hbytes], hle⟩

/-- `io.Copy` writes the next bytes of the range to the download's own
file, which no chunk's path holds. -/
theorem Inv.copy (hi : Inv sha256 m content downloaded s) {tmp : List String} {x : ObjectId} {k i w : ℕ}
    (hd : s.downloads tmp = some ⟨x, k, some i, w⟩) (n : ℕ) :
    Inv sha256 m content downloaded
      ⟨s.disk.append i (((chunkBytes (content x) m.chunkSize k).drop w).take n),
        Function.update s.downloads tmp
          (some ⟨x, k, some i, w + (((chunkBytes (content x) m.chunkSize k).drop w).take n).length⟩)⟩ := by
  -- no other download and no chunk's path has the file
  have hother : ∀ t d' i', s.downloads t = some d' → d'.file = some i' → t ≠ tmp → i' ≠ i := by
    rintro t d' i' hd' hdi ht rfl
    exact ht (hi.file_inj t tmp d' _ i' hd' hd hdi rfl)
  have hchunkFile : ∀ x' k' i', s.disk.files (chunkPath sha256 m x' k') = some i' → i' ≠ i := by
    rintro x' k' i' hf rfl
    have hp := hi.owned tmp _ i' hd rfl _ hf
    exact absurd (hi.tmp_ext tmp _ hd) (hp ▸ by rw [ext_chunkPath]; decide)
  exact {
    chunk := fun x' k' i' hf => by
      obtain ⟨x'', k'', hx'', hpath, hbytes⟩ := hi.chunk x' k' i' hf
      exact ⟨x'', k'', hx'', hpath, by dsimp only [Disk.append]; rw [Function.update_of_ne (hchunkFile x' k' i' hf), hbytes]⟩
    started := fun t d' hd' => by
      rcases update_some_eq_some hd' with ⟨-, rfl⟩ | ⟨-, hd'⟩
      · exact hi.started tmp ⟨x, k, some i, w⟩ hd
      · exact hi.started t d' hd'
    file_lt := hi.file_lt
    download_lt := fun t d' i' hd' hdi => by
      rcases update_some_eq_some hd' with ⟨-, rfl⟩ | ⟨-, hd'⟩
      · exact hi.download_lt tmp _ i' hd hdi
      · exact hi.download_lt t d' i' hd' hdi
    tmp_ext := fun t d' hd' => by
      rcases update_some_eq_some hd' with ⟨rfl, -⟩ | ⟨-, hd'⟩
      · exact hi.tmp_ext t _ hd
      · exact hi.tmp_ext t d' hd'
    unstarted := fun t d' hd' => by
      rcases update_some_eq_some hd' with ⟨-, rfl⟩ | ⟨-, hd'⟩
      · exact nofun
      · exact hi.unstarted t d' hd'
    owned := fun t d' i' hd' hdi => by
      rcases update_some_eq_some hd' with ⟨rfl, rfl⟩ | ⟨-, hd'⟩
      · exact hi.owned t _ i' hd hdi
      · exact hi.owned t d' i' hd' hdi
    at_tmp := fun t d' j hd' hf => by
      rcases update_some_eq_some hd' with ⟨rfl, rfl⟩ | ⟨-, hd'⟩
      · exact hi.at_tmp t ⟨x, k, some i, w⟩ j hd hf
      · exact hi.at_tmp t d' j hd' hf
    file_inj := fun t t' d₁ d₂ i' hd₁ hd₂ h₁ h₂ => by
      rcases update_some_eq_some hd₁ with ⟨rfl, rfl⟩ | ⟨-, hold₁⟩ <;>
        rcases update_some_eq_some hd₂ with ⟨rfl, rfl⟩ | ⟨-, hold₂⟩
      · rfl
      · exact hi.file_inj t t' ⟨x, k, some i, w⟩ d₂ i' hd hold₂ h₁ h₂
      · exact hi.file_inj t t' d₁ ⟨x, k, some i, w⟩ i' hold₁ hd h₁ h₂
      · exact hi.file_inj t t' d₁ d₂ i' hold₁ hold₂ h₁ h₂
    written := fun t d' i' hd' hdi => by
      rcases update_some_eq_some hd' with ⟨rfl, rfl⟩ | ⟨ht, hd'⟩
      · -- the front grows by what the reader delivered
        obtain rfl := Option.some.inj hdi
        obtain ⟨hbytes, hle⟩ := hi.written t ⟨x, k, some i, w⟩ i hd rfl
        simp only [downloadRange] at hbytes hle ⊢
        refine ⟨?_, ?_⟩
        · dsimp only [Disk.append]
          rw [Function.update_self, hbytes, List.take_add, take_length_take]
        · rw [List.length_take, List.length_drop]
          omega
      · obtain ⟨hbytes, hle⟩ := hi.written t d' i' hd' hdi
        exact ⟨by dsimp only [Disk.append]; rw [Function.update_of_ne (hother t d' i' hd' hdi ht), hbytes], hle⟩ }

/-- **A finished download publishes its chunk.** `os.Rename` moves the
file at the temporary path, which is the download's own and holds the
whole chunk, to the chunk's path. -/
theorem Inv.rename (hi : Inv sha256 m content downloaded s) {tmp : List String} {x : ObjectId} {k i : ℕ}
    (hd : s.downloads tmp = some ⟨x, k, some i, chunkEnd m content x k - k * m.chunkSize⟩) {disk : Disk}
    (hdisk : s.disk.rename tmp (chunkPath sha256 m x k) = some disk) :
    Inv sha256 m content downloaded ⟨disk, (s.drop tmp).downloads⟩ := by
  obtain ⟨j, hj, rfl⟩ := Disk.rename_eq_some hdisk
  obtain rfl : i = j := by
    rcases hi.at_tmp tmp _ j hd hj with h | h
    · cases h
    · exact Option.some.inj h
  -- the copy wrote the whole chunk
  have hwhole : s.disk.bytes i = chunkBytes (content x) m.chunkSize k := by
    obtain ⟨hbytes, -⟩ := hi.written tmp _ i hd rfl
    rw [hbytes, downloadRange, List.take_of_length_le]
    exact length_objectRange_le _ _ _
  refine ((hi.drop tmp).remove tmp).put (hi.file_lt tmp i hj) ?_ ?_ ?_
  · intro x' k' hpath
    exact ⟨x, k, hi.started tmp _ hd, rfl, hwhole⟩
  · intro t d' hd' ht
    have hext := hi.tmp_ext t d' (update_none_eq_some hd').2
    rw [ht, ext_chunkPath] at hext
    exact absurd hext (by decide)
  · intro t d' hd' hdi
    obtain ⟨ht, hd'⟩ := update_none_eq_some hd'
    exact ht (hi.file_inj t tmp d' _ i hd' hd hdi rfl)

/-- **The collector's expiry moves a chunk's file out of every chunk's
path.** Its `.bak` is no chunk's path and no download's. -/
theorem Inv.expire (hi : Inv sha256 m content downloaded s) {p : List String} (hp : ext p = ".bin") {disk : Disk}
    (hdisk : s.disk.rename p (bakPath p) = some disk) : Inv sha256 m content downloaded { s with disk := disk } := by
  obtain ⟨j, hj, rfl⟩ := Disk.rename_eq_some hdisk
  have hbak := ext_bakPath_of_bin hp
  refine (hi.remove p).put (hi.file_lt p j hj) ?_ ?_ ?_
  · intro x k hpath
    rw [← hpath, ext_chunkPath] at hbak
    exact absurd hbak (by decide)
  · intro t d hd ht
    have hext := hi.tmp_ext t d hd
    rw [ht, hbak] at hext
    exact absurd hext (by decide)
  · -- the file at a `.bin` path is no download's
    intro t d hd hdi
    have hpt := hi.owned t d j hd hdi p hj
    have hext := hi.tmp_ext t d hd
    rw [← hpt, hp] at hext
    exact absurd hext (by decide)

/-- **Every step keeps the invariant.** -/
theorem Inv.step (hi : Inv sha256 m content downloaded s) {a : Action} {s' : Store}
    (hA : ∀ x k random, a = .start x k random → downloaded x)
    (h : step sha256 m content s a = some s') : Inv sha256 m content downloaded s' := by
  cases a with
  | start x k random =>
    obtain ⟨-, -, rfl⟩ := step_start h
    exact hi.start x k random (hA x k random rfl)
  | create tmp =>
    obtain ⟨d, disk, hd, hfile, hdisk, rfl⟩ := step_create h
    obtain ⟨hfree, rfl⟩ := Disk.createExcl_eq_some hdisk
    exact hi.create hd hfile hfree
  | createFails tmp =>
    rw [step_createFails h]
    exact hi.drop tmp
  | copy tmp n =>
    obtain ⟨x, k, i, w, hd, rfl⟩ := step_copy h
    exact hi.copy hd n
  | fail tmp =>
    obtain ⟨-, -, -, -, rfl⟩ := step_fail h
    exact (hi.drop tmp).remove tmp
  | rename tmp =>
    obtain ⟨x, k, i, hd, rfl | ⟨disk, hdisk, rfl⟩⟩ := step_rename h
    · exact hi.drop tmp
    · exact hi.rename hd hdisk
  | abandon tmp =>
    rw [step_abandon h]
    exact hi.drop tmp
  | remove p =>
    obtain ⟨-, rfl⟩ := step_remove h
    exact hi.remove p
  | expire p =>
    obtain ⟨hp, rfl | ⟨disk, hdisk, rfl⟩⟩ := step_expire h
    · exact hi
    · exact hi.expire hp hdisk

end Invariant

/-! ## Every run -/

/-- The generations a list of actions starts a download of. -/
def DownloadedIn (as : List Action) (x : ObjectId) : Prop := ∃ k random, Action.start x k random ∈ as

/-- **The invariant holds in every state that any interleaving reaches
from the empty directory**, for the generations the interleaving starts
downloads of. -/
theorem inv_of_run {sha256 m content} {as : List Action} {s : Store}
    (h : Run.run (step sha256 m content) Store.empty as = some s) :
    Inv sha256 m content (DownloadedIn as) s := by
  have hstarts : ∀ a ∈ as, ∀ x k random, a = .start x k random → DownloadedIn as x := by
    rintro a ha x k random rfl
    exact ⟨k, random, ha⟩
  exact @Run.run_invariant_of_forall Store Action (step sha256 m content) (Inv sha256 m content (DownloadedIn as))
    (fun a => ∀ x k random, a = .start x k random → DownloadedIn as x) (fun _ _ _ hA hi hs => hi.step hA hs)
    as Store.empty s hstarts Inv.empty h

end SharedStore

end FileCache

end GcsFuse
