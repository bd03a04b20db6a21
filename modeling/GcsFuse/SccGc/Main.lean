import Mathlib.Algebra.Order.Ring.Int
import GcsFuse.Common.GoSort
import Mathlib.Data.String.Basic
import Mathlib.Data.List.Sort
import Mathlib.Data.List.ModifyLast
/-!
# The shared chunk cache's garbage collector

`tools/gcsfuse-scc-gc/main.go`: one run walks the cache directory once,
removes the `.bak` files the last run left, renames the least recently
used `.bin` chunks to `.bak` until the chunks left fit the target size,
removes the `.tmp` files older than an hour, and tries to remove every
directory it walked, deepest first by the code's intent.

The cache directory is a tree of directories and files named by their
paths below it, lists of names. `Walk` visits the tree in lexical order,
a directory before what it holds. Both sorts are `slices.SortFunc`, of
which the run assumes what `GoSort.SortFunc` states. The workers that
rename and remove in parallel touch distinct paths, so here they run one
after another; the tool runs alone on the cache, and no call fails.
-/

namespace GcsFuse

namespace SccGc

open GoSort

/-- A path below the cache directory: its names, from the top. -/
abbrev Path := List String

/-- What `stat` gives of a file: its access and modification times, in
nanoseconds, and its size. -/
structure Stat where
  atime : ℤ
  mtime : ℤ
  size : ℤ
  deriving DecidableEq, Repr

/-- The cache directory's tree: the directories and the files below it. A
path names one file. -/
structure Tree where
  dirs : List Path
  files : List (Path × Stat)
  nodup : (files.map Prod.fst).Nodup
  deriving DecidableEq

/-- An entry `Walk` visits. -/
inductive Entry
  | dir
  | file (st : Stat)
  deriving DecidableEq, Repr

namespace Tree

/-- Every directory and file of the tree. -/
def entries (t : Tree) : List (Path × Entry) :=
  t.dirs.map (fun d => (d, .dir)) ++ t.files.map fun f => (f.1, .file f.2)

/-- `p` lies strictly below the directory `r`. -/
def isBelow (r p : Path) : Bool := r.isPrefixOf p && p != r

/-- `filepath.Walk` of `root`, whose own visit the walk function skips:
the entries below it, in lexical order of their paths. -/
def walk (t : Tree) (root : Path) : List (Path × Entry) :=
  (t.entries.filter fun e => isBelow root e.1).insertionSort fun a b => a.1 ≤ b.1

theorem nodup_filter (t : Tree) (q : Path × Stat → Bool) : ((t.files.filter q).map Prod.fst).Nodup :=
  t.nodup.sublist (List.filter_sublist.map _)

theorem nodup_filter_append (t : Tree) (p p' : Path) (st : Stat) :
    ((t.files.filter (fun g => g.1 != p && g.1 != p') ++ [(p', st)]).map Prod.fst).Nodup := by
  rw [List.map_append, List.nodup_append]
  refine ⟨t.nodup_filter _, List.nodup_singleton _, ?_⟩
  intro a ha b hb
  obtain ⟨g, hg, rfl⟩ := List.mem_map.mp ha
  rw [List.map_singleton, List.mem_singleton] at hb
  subst hb
  have := (List.mem_filter.mp hg).2
  simp only [Bool.and_eq_true, bne_iff_ne, ne_eq] at this
  exact this.2

/-- `os.Remove` of a file. -/
def removeFile (t : Tree) (p : Path) : Tree :=
  { t with files := t.files.filter (·.1 != p), nodup := t.nodup_filter _ }

@[simp] theorem removeFile_files (t : Tree) (p : Path) : (t.removeFile p).files = t.files.filter (·.1 != p) :=
  rfl

@[simp] theorem removeFile_dirs (t : Tree) (p : Path) : (t.removeFile p).dirs = t.dirs :=
  rfl

/-- `os.Rename` of a file: its stat moves to the new path, in place of
any file there. A file no longer there is `ENOENT`, which changes
nothing. -/
def rename (t : Tree) (p p' : Path) : Tree :=
  match t.files.find? (·.1 == p) with
  | none => t
  | some f =>
    { t with
      files := t.files.filter (fun g => g.1 != p && g.1 != p') ++ [(p', f.2)]
      nodup := t.nodup_filter_append p p' f.2 }

@[simp] theorem rename_dirs (t : Tree) (p p' : Path) : (t.rename p p').dirs = t.dirs := by
  unfold rename
  split <;> rfl

/-- `os.Remove` of a directory: gone when nothing lies below it, else
`ENOTEMPTY`, which the code ignores. -/
def removeDir (t : Tree) (d : Path) : Tree :=
  if t.dirs.any (isBelow d) || t.files.any (fun f => d.isPrefixOf f.1) then t
  else { t with dirs := t.dirs.filter (· != d) }

@[simp] theorem removeDir_files (t : Tree) (d : Path) : (t.removeDir d).files = t.files := by
  unfold removeDir
  split <;> rfl

end Tree

/-! ## Names and paths -/

/-- The suffix of a name from its last dot, if it has one. -/
def dotSuffix : List Char → Option (List Char)
  | [] => none
  | c :: cs =>
    match dotSuffix cs with
    | some s => some s
    | none => if c = '.' then some (c :: cs) else none

/-- `filepath.Ext` of a path: from the last dot of its last name on, or
empty. -/
def ext (p : Path) : String := String.ofList ((dotSuffix (p.getLast?.getD "").toList).getD [])

/-- `file.Path + ".bak"`. -/
def bakPath (p : Path) : Path := p.modifyLast (· ++ ".bak")

@[simp] theorem bakPath_nil : bakPath [] = [] := rfl

/-- `filepath.Join` of the cache directory and a path below it. -/
def joinPath (cacheDir : String) (p : Path) : String := p.foldl (fun acc name => acc ++ "/" ++ name) cacheDir

/-- `filepath.SplitList`: the path cut at every `:`, the separator of a
list of paths; nothing for the empty path. -/
def splitList (path : String) : List String :=
  if path = "" then [] else (path.toList.splitOn ':').map String.ofList

/-! ## The scan -/

/-- `FileInfo`. -/
structure FileInfo where
  path : Path
  atime : ℤ
  mtime : ℤ
  size : ℤ
  deriving DecidableEq, Repr

/-- `Manifest`, without `ScanDuration`. -/
structure Manifest where
  files : List FileInfo
  bakFiles : List FileInfo
  tmpFiles : List FileInfo
  dirs : List Path
  totalSize : ℤ
  deriving DecidableEq, Repr

/-- The subdirectory `scanCache` walks instead, when there is one. -/
def sharedChunkCacheDir : String := "gcsfuse-shared-chunk-cache"

/-- The directory `scanCache` walks. -/
def scanRoot (t : Tree) : Path := if [sharedChunkCacheDir] ∈ t.dirs then [sharedChunkCacheDir] else []

/-- The walk function of `scanCache`, on the entry at `p`. -/
def scanEntry (m : Manifest) : Path × Entry → Manifest
  | (p, .dir) => { m with dirs := m.dirs ++ [p] }
  | (p, .file st) =>
    let info : FileInfo := ⟨p, st.atime, st.mtime, st.size⟩
    match ext p with
    | ".bin" => { m with files := m.files ++ [info], totalSize := m.totalSize + st.size }
    | ".bak" => { m with bakFiles := m.bakFiles ++ [info] }
    | ".tmp" => { m with tmpFiles := m.tmpFiles ++ [info] }
    | _ => m

/-- The walk of `scanCache` from `cacheDir`. -/
def scanFrom (t : Tree) (cacheDir : Path) : Manifest := (t.walk cacheDir).foldl scanEntry ⟨[], [], [], [], 0⟩

/-- `scanCache`. -/
def scanCache (t : Tree) : Manifest := scanFrom t (scanRoot t)

/-! ## The run -/

/-- `removeBakFiles`. -/
def removeBakFiles (files : List FileInfo) (t : Tree) : Tree := files.foldl (fun t f => t.removeFile f.path) t

/-- One hour, in nanoseconds. -/
def hour : ℤ := 3600 * 1000000000

/-- `removeOldTmpFiles` at time `now`: the files last modified before an
hour ago. -/
def removeOldTmpFiles (now : ℤ) (files : List FileInfo) (t : Tree) : Tree :=
  (files.filter fun f => f.mtime < now - hour).foldl (fun t f => t.removeFile f.path) t

/-- When a file was last used: the later of its access and its
modification. -/
def lastUse (f : FileInfo) : ℤ := if f.atime < f.mtime then f.mtime else f.atime

/-- The comparator of `findLRUFiles`. -/
def lruCmp (a b : FileInfo) : ℤ :=
  if lastUse a < lastUse b then -1 else if lastUse b < lastUse a then 1 else 0

/-- The loop of `findLRUFiles`, with `totalBytes` selected so far: each
file in turn, until the selected reach `bytesToExpire`. -/
def selectFiles (bytesToExpire : ℤ) : ℤ → List FileInfo → List FileInfo
  | _, [] => []
  | totalBytes, f :: fs =>
    if bytesToExpire ≤ totalBytes + f.size then [f]
    else f :: selectFiles bytesToExpire (totalBytes + f.size) fs

/-- `findLRUFiles`. -/
def findLRUFiles (s : SortFunc) (m : Manifest) (targetSize : ℤ) : List FileInfo :=
  if m.totalSize ≤ targetSize then []
  else selectFiles (m.totalSize - targetSize) 0 (s.sort lruCmp m.files)

/-- `expireFiles`: each file renamed to its `.bak`. -/
def expireFiles (files : List FileInfo) (t : Tree) : Tree :=
  files.foldl (fun t f => t.rename f.path (bakPath f.path)) t

/-- The comparator of `cleanupEmptyDirs`: `bDepth - aDepth`, a depth being
the number of elements `filepath.SplitList` finds in the path. -/
def depthCmp (cacheDir : String) (a b : Path) : ℤ :=
  ((splitList (joinPath cacheDir b)).length : ℤ) - (splitList (joinPath cacheDir a)).length

/-- `cleanupEmptyDirs`. -/
def cleanupEmptyDirs (s : SortFunc) (cacheDir : String) (dirs : List Path) (t : Tree) : Tree :=
  (s.sort (depthCmp cacheDir) dirs).foldl Tree.removeDir t

/-- `MiB`. -/
def MiB : ℤ := 1024 * 1024

/-- Go's `int64` arithmetic: `z` modulo `2 ^ 64`, in `[-2 ^ 63, 2 ^ 63)`. -/
def wrapInt64 (z : ℤ) : ℤ := (z + 2 ^ 63) % 2 ^ 64 - 2 ^ 63

/-- One run of `main` at time `now`; `none` where it exits for want of a
`-cache-dir`. -/
def main (s : SortFunc) (cacheDir : String) (targetSizeMb : ℤ) (dryRun : Bool) (now : ℤ) (t : Tree) :
    Option Tree :=
  if cacheDir = "" then none
  else if dryRun then some t
  else
    let m := scanCache t
    let t := removeBakFiles m.bakFiles t
    -- `*targetSize * MiB` is an `int64` product, and wraps
    let targetBytes := wrapInt64 (targetSizeMb * MiB)
    let t := if targetBytes < m.totalSize then expireFiles (findLRUFiles s m targetBytes) t else t
    let t := removeOldTmpFiles now m.tmpFiles t
    some (cleanupEmptyDirs s cacheDir m.dirs t)

end SccGc

end GcsFuse
