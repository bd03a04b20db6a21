import Mathlib.Algebra.Order.Ring.Int
import Mathlib.Algebra.BigOperators.Group.List.Basic
import GcsFuse.SccGc.Main
/-!
# What one run of the collector does

The scan lists, in walk order, the `.bin`, `.bak` and `.tmp` files and the
directories below its root; up to order that is the tree's own files
below the root (`scanFrom_files_perm`). Each removal and rename of the run
is then tracked on the `.bin` files of the tree: removing a `.bak` or
`.tmp` file leaves them, renaming a chunk to its `.bak` drops exactly that
chunk. So a run leaves the chunks the scan listed less the ones
`findLRUFiles` chose, a prefix of the chunks by last use that reaches the
bytes to expire and no shorter one does.

The removal of empty directories is where the run falls short of its
comment: `filepath.SplitList` cuts at the list separator `:`, not at `/`,
so every directory has depth one, the sort keeps the walk order, parents
come before their children, and an empty directory above another is
never removed.
-/

namespace GcsFuse

namespace SccGc

open GoSort

/-! ## Extensions -/

theorem dotSuffix_append {xs ys s : List Char} (h : dotSuffix ys = some s) :
    dotSuffix (xs ++ ys) = some s := by
  induction xs with
  | nil => exact h
  | cons c xs ih => simp only [List.cons_append, dotSuffix, ih]

/-- A renamed file is a `.bak` file. -/
theorem ext_bakPath_of_ne_nil {p : Path} (hp : p ≠ []) : ext (bakPath p) = ".bak" := by
  obtain ⟨l, x, rfl⟩ := (List.eq_nil_or_concat' p).resolve_left hp
  have hsuffix : dotSuffix (x ++ ".bak").toList = some ".bak".toList := by
    rw [String.toList_append]
    exact dotSuffix_append (by decide)
  rw [ext, bakPath, List.modifyLast_concat, List.getLast?_concat, Option.getD_some, hsuffix,
    Option.getD_some, String.ofList_toList]

theorem ext_bakPath (p : Path) : ext (bakPath p) = ".bak" ∨ ext (bakPath p) = "" := by
  by_cases hp : p = []
  · subst hp
    exact .inr rfl
  · exact .inl (ext_bakPath_of_ne_nil hp)

/-- A renamed chunk is no chunk and no temporary file. -/
theorem ext_bakPath_ne {x : String} (hbak : x ≠ ".bak") (hnil : x ≠ "") (p : Path) : ext (bakPath p) ≠ x := by
  rcases ext_bakPath p with h | h <;> rw [h]
  · exact Ne.symm hbak
  · exact Ne.symm hnil

/-! ## The scan -/

/-- The record the scan makes of the entry `e`, when it is a file whose
extension is `x`. -/
def fileWithExt (x : String) : Path × Entry → Option FileInfo
  | (p, .file st) => if ext p = x then some ⟨p, st.atime, st.mtime, st.size⟩ else none
  | (_, .dir) => none

/-- The directory the scan records of the entry `e`. -/
def dirOf : Path × Entry → Option Path
  | (p, .dir) => some p
  | (_, .file _) => none

/-- The record the scan makes of the file `f`, when it lies below `r`
and its extension is `x`. -/
def fileBelow (x : String) (r : Path) (f : Path × Stat) : Option FileInfo :=
  if Tree.isBelow r f.1 then fileWithExt x (f.1, .file f.2) else none

/-- The records the scan makes of the files `fs` below `r` whose
extension is `x`. -/
def filesBelow (x : String) (r : Path) (fs : List (Path × Stat)) : List FileInfo :=
  fs.filterMap (fileBelow x r)

/-- The bytes of a list of files. -/
def sumSize (fs : List FileInfo) : ℤ := (fs.map FileInfo.size).sum

@[simp] theorem sumSize_nil : sumSize [] = 0 := rfl

@[simp] theorem sumSize_cons (f : FileInfo) (fs : List FileInfo) : sumSize (f :: fs) = f.size + sumSize fs :=
  List.sum_cons

theorem sumSize_append (fs gs : List FileInfo) : sumSize (fs ++ gs) = sumSize fs + sumSize gs := by
  simp [sumSize]

theorem filterMap_cons_eq_toList_append {α β : Type} (f : α → Option β) (a : α) (l : List α) :
    (a :: l).filterMap f = (f a).toList ++ l.filterMap f := by
  cases h : f a <;> simp [h]

theorem scanEntry_eq (m : Manifest) (e : Path × Entry) :
    scanEntry m e =
      { files := m.files ++ (fileWithExt ".bin" e).toList
        bakFiles := m.bakFiles ++ (fileWithExt ".bak" e).toList
        tmpFiles := m.tmpFiles ++ (fileWithExt ".tmp" e).toList
        dirs := m.dirs ++ (dirOf e).toList
        totalSize := m.totalSize + sumSize (fileWithExt ".bin" e).toList } := by
  obtain ⟨p, _ | st⟩ := e
  · simp [scanEntry, fileWithExt, dirOf]
  · -- the four arms of the switch on the extension
    simp only [scanEntry, fileWithExt, dirOf]
    split <;> simp_all

theorem foldl_scanEntry (es : List (Path × Entry)) (m : Manifest) :
    es.foldl scanEntry m =
      { files := m.files ++ es.filterMap (fileWithExt ".bin")
        bakFiles := m.bakFiles ++ es.filterMap (fileWithExt ".bak")
        tmpFiles := m.tmpFiles ++ es.filterMap (fileWithExt ".tmp")
        dirs := m.dirs ++ es.filterMap dirOf
        totalSize := m.totalSize + sumSize (es.filterMap (fileWithExt ".bin")) } := by
  induction es generalizing m with
  | nil => simp
  | cons e es ih =>
    rw [List.foldl_cons, ih, scanEntry_eq]
    simp only [filterMap_cons_eq_toList_append, List.append_assoc, sumSize_append, Int.add_assoc]

theorem fileBelow_eq_some {x : String} {r : Path} {f : Path × Stat} {i : FileInfo} :
    fileBelow x r f = some i ↔
      Tree.isBelow r f.1 = true ∧ ext f.1 = x ∧ i = ⟨f.1, f.2.atime, f.2.mtime, f.2.size⟩ := by
  unfold fileBelow fileWithExt
  by_cases hb : Tree.isBelow r f.1 <;> by_cases hx : ext f.1 = x <;> simp [hb, hx, eq_comm]

theorem mem_filesBelow {x : String} {r : Path} {fs : List (Path × Stat)} {i : FileInfo}
    (h : i ∈ filesBelow x r fs) : ext i.path = x ∧ ∃ f ∈ fs, f.1 = i.path := by
  obtain ⟨f, hf, hi⟩ := List.mem_filterMap.mp h
  obtain ⟨-, hx, rfl⟩ := fileBelow_eq_some.mp hi
  exact ⟨hx, f, hf, rfl⟩

theorem filesBelow_append (x : String) (r : Path) (fs gs : List (Path × Stat)) :
    filesBelow x r (fs ++ gs) = filesBelow x r fs ++ filesBelow x r gs :=
  List.filterMap_append

/-- Keeping the files of some paths keeps their records. -/
theorem filesBelow_filter (x : String) (r : Path) (q : Path → Bool) (fs : List (Path × Stat)) :
    filesBelow x r (fs.filter fun f => q f.1) = (filesBelow x r fs).filter fun i => q i.path := by
  rw [filesBelow, filesBelow, List.filterMap_filter, List.filter_filterMap]
  apply List.filterMap_congr
  intro f _
  cases h : fileBelow x r f with
  | none => simp
  | some i =>
    obtain ⟨-, -, rfl⟩ := fileBelow_eq_some.mp h
    by_cases hq : q f.1 <;> simp [hq, Option.filter]

/-- Up to order, the scan of `r` records the tree's files below `r`. -/
theorem filterMap_walk_perm (t : Tree) (r : Path) (x : String) :
    ((t.walk r).filterMap (fileWithExt x)).Perm (filesBelow x r t.files) := by
  have hsort : (t.walk r).Perm (t.entries.filter fun e => Tree.isBelow r e.1) :=
    List.perm_insertionSort _ _
  refine (hsort.filterMap _).trans (List.Perm.of_eq ?_)
  -- the directories of the tree give no file records
  simp only [Tree.entries, filesBelow, List.filter_append, List.filterMap_append, List.filter_map,
    List.filterMap_map, List.filterMap_filter, Function.comp_def]
  unfold fileBelow
  simp [fileWithExt]

theorem map_path_filesBelow_sublist (x : String) (r : Path) (fs : List (Path × Stat)) :
    ((filesBelow x r fs).map FileInfo.path).Sublist (fs.map Prod.fst) := by
  induction fs with
  | nil => exact .slnil
  | cons f fs ih =>
    rw [filesBelow, filterMap_cons_eq_toList_append]
    cases h : fileBelow x r f with
    | none => exact ih.cons _
    | some i =>
      obtain ⟨-, -, rfl⟩ := fileBelow_eq_some.mp h
      exact ih.cons_cons _

/-- A path names one file, so it names one record. -/
theorem nodup_path_filesBelow (t : Tree) (x : String) (r : Path) :
    ((filesBelow x r t.files).map FileInfo.path).Nodup :=
  t.nodup.sublist (map_path_filesBelow_sublist x r t.files)

theorem scanFrom_eq (t : Tree) (r : Path) :
    scanFrom t r =
      { files := (t.walk r).filterMap (fileWithExt ".bin")
        bakFiles := (t.walk r).filterMap (fileWithExt ".bak")
        tmpFiles := (t.walk r).filterMap (fileWithExt ".tmp")
        dirs := (t.walk r).filterMap dirOf
        totalSize := sumSize ((t.walk r).filterMap (fileWithExt ".bin")) } := by
  rw [scanFrom, foldl_scanEntry]
  simp

/-- **The scan lists the chunks below its root**, in walk order. -/
theorem scanFrom_files_perm (t : Tree) (r : Path) :
    (scanFrom t r).files.Perm (filesBelow ".bin" r t.files) := by
  rw [scanFrom_eq]
  exact filterMap_walk_perm t r ".bin"

theorem scanCache_bakFiles_perm (t : Tree) :
    (scanCache t).bakFiles.Perm (filesBelow ".bak" (scanRoot t) t.files) := by
  rw [scanCache, scanFrom_eq]
  exact filterMap_walk_perm t (scanRoot t) ".bak"

theorem scanCache_tmpFiles_perm (t : Tree) :
    (scanCache t).tmpFiles.Perm (filesBelow ".tmp" (scanRoot t) t.files) := by
  rw [scanCache, scanFrom_eq]
  exact filterMap_walk_perm t (scanRoot t) ".tmp"

theorem ext_of_mem_files {t : Tree} {f : FileInfo} (h : f ∈ (scanCache t).files) : ext f.path = ".bin" :=
  (mem_filesBelow ((scanFrom_files_perm t (scanRoot t)).subset h)).1

theorem ext_of_mem_bakFiles {t : Tree} {f : FileInfo} (h : f ∈ (scanCache t).bakFiles) : ext f.path = ".bak" :=
  (mem_filesBelow ((scanCache_bakFiles_perm t).subset h)).1

theorem ext_of_mem_tmpFiles {t : Tree} {f : FileInfo} (h : f ∈ (scanCache t).tmpFiles) : ext f.path = ".tmp" :=
  (mem_filesBelow ((scanCache_tmpFiles_perm t).subset h)).1

/-! ## The run, on the chunks of the tree -/

/-- Removing files drops the records at their paths. -/
theorem filesBelow_foldl_removeFile_eq_filter (x : String) (r : Path) (fs : List FileInfo) (t : Tree) :
    filesBelow x r (fs.foldl (fun t f => t.removeFile f.path) t).files =
      (filesBelow x r t.files).filter fun i => i.path ∉ fs.map FileInfo.path := by
  induction fs generalizing t with
  | nil => simp
  | cons f fs ih =>
    rw [List.foldl_cons, ih, Tree.removeFile_files, filesBelow_filter x r (· != f.path), List.filter_filter]
    apply List.filter_congr
    intro i _
    by_cases hf : i.path = f.path <;> simp [hf]

/-- Removing files that are no chunks leaves the chunks. -/
theorem filesBelow_foldl_removeFile {x : String} (r : Path) {fs : List FileInfo}
    (h : ∀ f ∈ fs, ext f.path ≠ x) (t : Tree) :
    filesBelow x r (fs.foldl (fun t f => t.removeFile f.path) t).files = filesBelow x r t.files := by
  rw [filesBelow_foldl_removeFile_eq_filter]
  apply List.filter_eq_self.mpr
  intro i hi
  -- the records have the extension `x`, the removed files another
  have hne : i.path ∉ fs.map FileInfo.path := by
    intro hmem
    obtain ⟨f, hf, hfi⟩ := List.mem_map.mp hmem
    exact h f hf (hfi ▸ (mem_filesBelow hi).1)
  simpa using hne

/-- `removeOldTmpFiles` of the scan's `.tmp` files leaves the records of
the other files. -/
theorem filesBelow_removeOldTmpFiles {x : String} (hx : x ≠ ".tmp") (r : Path) (now : ℤ) (t u : Tree) :
    filesBelow x r (removeOldTmpFiles now (scanCache t).tmpFiles u).files = filesBelow x r u.files := by
  apply filesBelow_foldl_removeFile r
  intro f hf
  rw [ext_of_mem_tmpFiles (List.mem_filter.mp hf).1]
  exact Ne.symm hx

theorem expireFiles_cons (f : FileInfo) (fs : List FileInfo) (t : Tree) :
    expireFiles (f :: fs) t = expireFiles fs (t.rename f.path (bakPath f.path)) :=
  rfl

theorem foldl_removeDir_files (ds : List Path) (t : Tree) : (ds.foldl Tree.removeDir t).files = t.files := by
  induction ds generalizing t with
  | nil => rfl
  | cons d ds ih => rw [List.foldl_cons, ih, Tree.removeDir_files]

theorem cleanupEmptyDirs_files (s : SortFunc) (cacheDir : String) (ds : List Path) (t : Tree) :
    (cleanupEmptyDirs s cacheDir ds t).files = t.files :=
  foldl_removeDir_files _ t

/-- The run as the code orders its steps. The branch of `main` that skips
`findLRUFiles` is the early return of `findLRUFiles` itself. -/
theorem main_eq {s : SortFunc} {cacheDir : String} {targetSizeMb now : ℤ} {t : Tree} (hc : cacheDir ≠ "") :
    main s cacheDir targetSizeMb false now t =
      some (cleanupEmptyDirs s cacheDir (scanCache t).dirs
        (removeOldTmpFiles now (scanCache t).tmpFiles
          (expireFiles (findLRUFiles s (scanCache t) (wrapInt64 (targetSizeMb * MiB)))
            (removeBakFiles (scanCache t).bakFiles t)))) := by
  simp only [main, if_neg hc, Bool.false_eq_true, if_false]
  split_ifs with hlt
  · rfl
  · rw [findLRUFiles, if_pos (not_lt.mp hlt)]
    rfl

theorem ne_of_main_eq_some {s : SortFunc} {cacheDir : String} {targetSizeMb now : ℤ} {dryRun : Bool}
    {t t' : Tree} (h : main s cacheDir targetSizeMb dryRun now t = some t') : cacheDir ≠ "" := by
  rintro rfl
  simp [main] at h

/-- **The loop of `findLRUFiles` takes the shortest prefix that reaches
the bytes to expire**, or every file when none does. -/
theorem selectFiles_spec {bytesToExpire : ℤ} (fs : List FileInfo) {totalBytes : ℤ}
    (h : totalBytes < bytesToExpire) :
    ∃ k, selectFiles bytesToExpire totalBytes fs = fs.take k ∧
      (∀ j < k, totalBytes + sumSize (fs.take j) < bytesToExpire) ∧
      (bytesToExpire ≤ totalBytes + sumSize (fs.take k) ∨ fs.length ≤ k) := by
  induction fs generalizing totalBytes with
  | nil => exact ⟨0, rfl, fun j hj => absurd hj (Nat.not_lt_zero j), Or.inr le_rfl⟩
  | cons f fs ih =>
    by_cases hreach : bytesToExpire ≤ totalBytes + f.size
    · -- the loop breaks after `f`
      refine ⟨1, by rw [selectFiles, if_pos hreach]; rfl, ?_, Or.inl (by simpa using hreach)⟩
      intro j hj
      obtain rfl : j = 0 := by omega
      simpa using h
    · obtain ⟨k, hk, hlt, hend⟩ := ih (by omega : totalBytes + f.size < bytesToExpire)
      refine ⟨k + 1, by rw [selectFiles, if_neg hreach, hk, List.take_succ_cons], ?_, ?_⟩
      · intro j hj
        cases j with
        | zero => simpa using h
        | succ j =>
          have := hlt j (by omega)
          rw [List.take_succ_cons, sumSize_cons]
          omega
      · rw [List.take_succ_cons, sumSize_cons, List.length_cons]
        omega

/-- `findLRUFiles` chooses a prefix of the chunks sorted by last use: none
when they fit, else the shortest that reaches the bytes to expire. -/
theorem findLRUFiles_spec (s : SortFunc) (m : Manifest) (targetSize : ℤ) :
    ∃ k, findLRUFiles s m targetSize = (s.sort lruCmp m.files).take k ∧
      (∀ j < k, sumSize ((s.sort lruCmp m.files).take j) < m.totalSize - targetSize) ∧
      (m.totalSize - targetSize ≤ sumSize ((s.sort lruCmp m.files).take k) ∨
        (s.sort lruCmp m.files).length ≤ k) := by
  unfold findLRUFiles
  split_ifs with hle
  · refine ⟨0, rfl, fun j hj => absurd hj (Nat.not_lt_zero j), Or.inl ?_⟩
    rw [List.take_zero, sumSize_nil]
    omega
  · obtain ⟨k, hk, hlt, hend⟩ :=
      selectFiles_spec (s.sort lruCmp m.files) (by omega : (0 : ℤ) < m.totalSize - targetSize)
    simp only [zero_add] at hlt hend
    exact ⟨k, hk, hlt, hend⟩

theorem findLRUFiles_of_files_eq_nil (s : SortFunc) {m : Manifest} (h : m.files = []) (targetSize : ℤ) :
    findLRUFiles s m targetSize = [] := by
  unfold findLRUFiles
  split_ifs
  · rfl
  · rw [h, s.small lruCmp [] (Nat.zero_le _)]
    rfl

/-- The chunks in the order of `findLRUFiles` are the scan's. -/
theorem sort_perm_filesBelow (s : SortFunc) (t : Tree) :
    (s.sort lruCmp (scanCache t).files).Perm (filesBelow ".bin" (scanRoot t) t.files) :=
  (s.perm lruCmp _).trans (scanFrom_files_perm t (scanRoot t))

theorem nodup_path_sort (s : SortFunc) (t : Tree) : ((s.sort lruCmp (scanCache t).files).map FileInfo.path).Nodup :=
  ((sort_perm_filesBelow s t).map _).nodup_iff.mpr (nodup_path_filesBelow t ".bin" (scanRoot t))

theorem mem_removeFile {t : Tree} {p : Path} {x : Path × Stat} :
    x ∈ (t.removeFile p).files ↔ x ∈ t.files ∧ x.1 ≠ p := by
  simp [Tree.removeFile_files]

theorem mem_foldl_removeFile {fs : List FileInfo} {t : Tree} {x : Path × Stat} :
    x ∈ (fs.foldl (fun t f => t.removeFile f.path) t).files ↔ x ∈ t.files ∧ x.1 ∉ fs.map FileInfo.path := by
  induction fs generalizing t with
  | nil => simp
  | cons f fs ih =>
    rw [List.foldl_cons, ih, mem_removeFile, List.map_cons, List.mem_cons, not_or, and_assoc]

/-- `os.Rename` leaves the files at other paths than its two. -/
theorem mem_rename {t : Tree} {p p' : Path} {x : Path × Stat} (hp : x.1 ≠ p) (hp' : x.1 ≠ p') :
    x ∈ (t.rename p p').files ↔ x ∈ t.files := by
  unfold Tree.rename
  split
  · rfl
  · rename_i f _
    have hx : x ≠ (p', f.2) := fun he => hp' (by rw [he])
    simp [hp, hp', hx]

/-- `expireFiles` touches no file but at the paths of its chunks and of
their `.bak`s. -/
theorem mem_expireFiles {fs : List FileInfo} {x : Path × Stat}
    (hx : ∀ f ∈ fs, x.1 ≠ f.path ∧ x.1 ≠ bakPath f.path) (t : Tree) :
    x ∈ (expireFiles fs t).files ↔ x ∈ t.files := by
  induction fs generalizing t with
  | nil => rfl
  | cons f fs ih =>
    obtain ⟨hp, hbak⟩ := hx f List.mem_cons_self
    rw [expireFiles_cons, ih (fun g hg => hx g (List.mem_cons_of_mem f hg)), mem_rename hp hbak]

theorem mem_filesBelow_self {x : String} {r p : Path} {st : Stat} {fs : List (Path × Stat)} (hp : (p, st) ∈ fs)
    (hb : Tree.isBelow r p = true) (hx : ext p = x) : ⟨p, st.atime, st.mtime, st.size⟩ ∈ filesBelow x r fs :=
  List.mem_filterMap.mpr ⟨(p, st), hp, fileBelow_eq_some.mpr ⟨hb, hx, rfl⟩⟩

/-- The one record of the scan at the path of a file is that file's. -/
theorem eq_of_mem_filesBelow {t : Tree} {x : String} {r p : Path} {st : Stat} (hp : (p, st) ∈ t.files)
    {i : FileInfo} (hi : i ∈ filesBelow x r t.files) (hpath : i.path = p) :
    Tree.isBelow r p = true ∧ i = ⟨p, st.atime, st.mtime, st.size⟩ := by
  obtain ⟨f, hf, hfi⟩ := List.mem_filterMap.mp hi
  obtain ⟨hb, -, rfl⟩ := fileBelow_eq_some.mp hfi
  obtain rfl : f = (p, st) := List.inj_on_of_nodup_map t.nodup hf hp hpath
  exact ⟨hb, rfl⟩

theorem mem_of_mem_findLRUFiles {s : SortFunc} {m : Manifest} {targetSize : ℤ} {f : FileInfo}
    (h : f ∈ findLRUFiles s m targetSize) : f ∈ m.files := by
  obtain ⟨k, hk, -⟩ := findLRUFiles_spec s m targetSize
  rw [hk] at h
  exact (s.perm lruCmp m.files).subset (List.mem_of_mem_take h)

/-- A chunk `findLRUFiles` chooses is a `.bin` file of the tree below the
directory the scan walked, with the stat the scan recorded. -/
theorem mem_files_of_mem_findLRUFiles {s : SortFunc} {t : Tree} {targetSize : ℤ} {f : FileInfo}
    (hf : f ∈ findLRUFiles s (scanCache t) targetSize) :
    (f.path, ⟨f.atime, f.mtime, f.size⟩) ∈ t.files ∧ Tree.isBelow (scanRoot t) f.path = true ∧
      ext f.path = ".bin" := by
  obtain ⟨g, hg, hgf⟩ := List.mem_filterMap.mp
    ((scanFrom_files_perm t (scanRoot t)).subset (mem_of_mem_findLRUFiles hf))
  obtain ⟨hb, hx, rfl⟩ := fileBelow_eq_some.mp hgf
  exact ⟨hg, hb, hx⟩

/-- **A run removes exactly the `.tmp` files below the directory it
scanned that were last modified over an hour before.** A younger one may
be a chunk still being downloaded; the hour is the code's margin for it. -/
theorem main_removes_old_tmp_files {s : SortFunc} {cacheDir : String} {targetSizeMb now : ℤ}
    {t t' : Tree} (h : main s cacheDir targetSizeMb false now t = some t') {p : Path} {st : Stat}
    (hp : (p, st) ∈ t.files) (htmp : ext p = ".tmp") :
    (p, st) ∈ t'.files ↔ (Tree.isBelow (scanRoot t) p = true → now - hour ≤ st.mtime) := by
  rw [main_eq (ne_of_main_eq_some h), Option.some_inj] at h
  -- no `.bak` file, chunk or renamed chunk is at `p`
  have hbak : p ∉ (scanCache t).bakFiles.map FileInfo.path := by
    intro hmem
    obtain ⟨f, hf, rfl⟩ := List.mem_map.mp hmem
    rw [ext_of_mem_bakFiles hf] at htmp
    exact absurd htmp (by decide)
  have hexpired : ∀ f ∈ findLRUFiles s (scanCache t) (wrapInt64 (targetSizeMb * MiB)), p ≠ f.path ∧ p ≠ bakPath f.path := by
    intro f hf
    refine ⟨fun he => ?_, fun he => ext_bakPath_ne (by decide) (by decide) f.path (he ▸ htmp)⟩
    rw [he, (mem_files_of_mem_findLRUFiles hf).2.2] at htmp
    exact absurd htmp (by decide)
  -- the old temporary files the run removes: the scan's record of `p` is `p`'s own
  have htmpFiles : p ∈ ((scanCache t).tmpFiles.filter fun f => f.mtime < now - hour).map FileInfo.path ↔
      Tree.isBelow (scanRoot t) p = true ∧ st.mtime < now - hour := by
    have hperm := scanCache_tmpFiles_perm t
    constructor
    · intro hmem
      obtain ⟨i, hi, hpath⟩ := List.mem_map.mp hmem
      obtain ⟨hi, hold⟩ := List.mem_filter.mp hi
      obtain ⟨hb, rfl⟩ := eq_of_mem_filesBelow hp (hperm.subset hi) hpath
      exact ⟨hb, by simpa using hold⟩
    · rintro ⟨hb, hold⟩
      refine List.mem_map.mpr ⟨⟨p, st.atime, st.mtime, st.size⟩, List.mem_filter.mpr ⟨?_, by simpa using hold⟩, rfl⟩
      exact hperm.symm.subset (mem_filesBelow_self hp hb htmp)
  rw [← h, cleanupEmptyDirs_files, removeOldTmpFiles, mem_foldl_removeFile, mem_expireFiles hexpired,
    removeBakFiles, mem_foldl_removeFile, htmpFiles]
  simp only [hp, hbak, not_false_eq_true, and_self, true_and, not_and, not_lt]

theorem two_hour_old_tmp_file_removed :
    (["x.tmp"], (⟨0, 0, 5⟩ : Stat)) ∈ (⟨[], [], List.nodup_nil⟩ : Tree).files ↔
      (Tree.isBelow (scanRoot ⟨[], [(["x.tmp"], ⟨0, 0, 5⟩)], by decide⟩) ["x.tmp"] = true →
        7200000000000 - hour ≤ 0) :=
  @main_removes_old_tmp_files SortFunc.insertion "/cache" 0 7200000000000
    ⟨[], [(["x.tmp"], ⟨0, 0, 5⟩)], by decide⟩ ⟨[], [], List.nodup_nil⟩ (by decide) _ _ (by decide) (by decide)

/-! ## The loop of `cleanupEmptyDirs` -/

/-- Some file lies below `d`: what makes `os.Remove` of `d` fail. -/
def holdsFile (t : Tree) (d : Path) : Bool := t.files.any fun f => d.isPrefixOf f.1

theorem holdsFile_removeDir (t : Tree) (a d : Path) : holdsFile (t.removeDir a) d = holdsFile t d := by
  rw [holdsFile, holdsFile, Tree.removeDir_files]

theorem isPrefix_of_isBelow {a d : Path} (h : Tree.isBelow a d = true) : a <+: d := by
  simp only [Tree.isBelow, Bool.and_eq_true] at h
  exact List.isPrefixOf_iff_prefix.mp h.1

theorem length_lt_of_isBelow {a d : Path} (h : Tree.isBelow a d = true) : a.length < d.length := by
  obtain ⟨u, rfl⟩ := isPrefix_of_isBelow h
  have hu : u ≠ [] := by
    rintro rfl
    simp [Tree.isBelow] at h
  rw [List.length_append]
  have := List.length_pos_of_ne_nil hu
  omega

theorem ne_nil_of_isBelow {a d : Path} (h : Tree.isBelow a d = true) : d ≠ [] := by
  rintro rfl
  simpa using length_lt_of_isBelow h

/-- A directory above one that holds a file holds it too. -/
theorem holdsFile_of_isBelow {t : Tree} {a d : Path} (h : holdsFile t d = true) (hb : Tree.isBelow a d = true) :
    holdsFile t a = true := by
  obtain ⟨f, hf, hp⟩ := List.any_eq_true.mp h
  refine List.any_eq_true.mpr ⟨f, hf, ?_⟩
  rw [List.isPrefixOf_iff_prefix] at hp ⊢
  exact (isPrefix_of_isBelow hb).trans hp

theorem removeDir_dirs_subset (t : Tree) (d : Path) : (t.removeDir d).dirs ⊆ t.dirs := by
  unfold Tree.removeDir
  split
  · exact List.Subset.refl _
  · exact fun d' hd' => (List.mem_filter.mp hd').1

theorem foldl_removeDir_dirs_subset (ds : List Path) (t : Tree) : (ds.foldl Tree.removeDir t).dirs ⊆ t.dirs := by
  induction ds generalizing t with
  | nil => exact List.Subset.refl _
  | cons d ds ih => exact List.Subset.trans (ih _) (removeDir_dirs_subset t d)

/-- A directory `os.Remove` leaves holds a file or a directory. -/
theorem mem_removeDir_self {t : Tree} {d : Path} (h : d ∈ (t.removeDir d).dirs) :
    holdsFile t d = true ∨ ∃ d' ∈ t.dirs, Tree.isBelow d d' = true := by
  unfold Tree.removeDir at h
  split at h
  · rename_i hany
    simp only [Bool.or_eq_true, List.any_eq_true] at hany
    rcases hany with ⟨d', hd', hb⟩ | hfile
    · exact .inr ⟨d', hd', hb⟩
    · exact .inl (List.any_eq_true.mpr hfile)
  · simp at h

/-- **Deepest first, the loop of `cleanupEmptyDirs` removes every directory
it is given whose subtree holds no file**, when every directory below one
it is given is given too or holds a file. The induction is on the list;
what it carries is that second condition, for the directories left. -/
theorem foldl_removeDir_deepest_first (ds : List Path) (t : Tree)
    (hdeep : ds.Pairwise fun a b => b.length ≤ a.length)
    (hcover : ∀ d' ∈ t.dirs, ∀ a ∈ ds, Tree.isBelow a d' = true → d' ∈ ds ∨ holdsFile t d' = true)
    {d : Path} (hd : d ∈ ds) (hempty : holdsFile t d = false) : d ∉ (ds.foldl Tree.removeDir t).dirs := by
  induction ds generalizing t with
  | nil => cases hd
  | cons a ds ih =>
    obtain ⟨ha, hds⟩ := List.pairwise_cons.mp hdeep
    rw [List.foldl_cons]
    -- the head is the deepest: nothing the list gives lies below it
    have hfirst : holdsFile t a = false → a ∉ (t.removeDir a).dirs := by
      intro hnot hmem
      rcases mem_removeDir_self hmem with hfile | ⟨d', hd', hb⟩
      · rw [hnot] at hfile
        cases hfile
      · rcases hcover d' hd' a List.mem_cons_self hb with hd'ds | hfile
        · rcases List.mem_cons.mp hd'ds with rfl | hd'ds
          · simp [Tree.isBelow] at hb
          · exact absurd (ha d' hd'ds) (Nat.not_le.mpr (length_lt_of_isBelow hb))
        · rw [holdsFile_of_isBelow hfile hb] at hnot
          cases hnot
    have hcover' : ∀ d' ∈ (t.removeDir a).dirs, ∀ b ∈ ds, Tree.isBelow b d' = true →
        d' ∈ ds ∨ holdsFile (t.removeDir a) d' = true := by
      intro d' hd' b hb hbelow
      rw [holdsFile_removeDir]
      rcases hcover d' (removeDir_dirs_subset t a hd') b (List.mem_cons_of_mem a hb) hbelow with hd'ds | hfile
      · rcases List.mem_cons.mp hd'ds with rfl | hd'ds
        · -- the head stayed, so it holds a file
          right
          by_contra hnot
          exact hfirst (by simpa using hnot) hd'
        · exact .inl hd'ds
      · exact .inr hfile
    rcases List.mem_cons.mp hd with rfl | hd
    · exact fun hmem => hfirst hempty (foldl_removeDir_dirs_subset ds _ hmem)
    · exact ih (t.removeDir a) hds hcover' hd (by rw [holdsFile_removeDir]; exact hempty)

theorem nested_empty_directories_removed_deepest_first :
    ["a"] ∉ ([["a", "b"], ["a"]].foldl Tree.removeDir ⟨[["a"], ["a", "b"]], [], List.nodup_nil⟩).dirs :=
  foldl_removeDir_deepest_first [["a", "b"], ["a"]] ⟨[["a"], ["a", "b"]], [], List.nodup_nil⟩ (by decide)
    (by decide) (by decide) (by decide)

/-! ## The expired chunks, kept as `.bak` files -/

/-- The record of a chunk once renamed to its `.bak`. -/
def toBak (f : FileInfo) : FileInfo := ⟨bakPath f.path, f.atime, f.mtime, f.size⟩

theorem bakPath_injective : Function.Injective bakPath := by
  intro p q h
  rcases List.eq_nil_or_concat' p with rfl | ⟨l, x, rfl⟩ <;>
    rcases List.eq_nil_or_concat' q with rfl | ⟨l', y, rfl⟩
  · rfl
  · rw [bakPath_nil, bakPath, List.modifyLast_concat] at h
    simp at h
  · rw [bakPath_nil, bakPath, List.modifyLast_concat] at h
    simp at h
  · rw [bakPath, bakPath, List.modifyLast_concat, List.modifyLast_concat] at h
    obtain ⟨rfl, hxy⟩ := List.append_singleton_inj.mp h
    rw [(String.append_left_inj ".bak").mp hxy]

/-- A chunk's `.bak` lies in the chunk's directory. -/
theorem isBelow_bakPath {r p : Path} (h : Tree.isBelow r p = true) : Tree.isBelow r (bakPath p) = true := by
  have hlt := length_lt_of_isBelow h
  obtain ⟨l, x, rfl⟩ := (List.eq_nil_or_concat' p).resolve_left (ne_nil_of_isBelow h)
  rw [List.length_append, List.length_singleton] at hlt
  have hrl : r <+: l :=
    List.prefix_of_prefix_length_le (isPrefix_of_isBelow h) (List.prefix_append l [x]) (by omega)
  rw [bakPath, List.modifyLast_concat]
  simp only [Tree.isBelow, Bool.and_eq_true, bne_iff_ne, ne_eq]
  refine ⟨List.isPrefixOf_iff_prefix.mpr (hrl.trans (List.prefix_append l _)), fun he => ?_⟩
  have hlen := congrArg List.length he
  rw [List.length_append, List.length_singleton] at hlen
  omega

/-- A file `os.Rename` leaves is one it found, or the renamed one. -/
theorem mem_rename_files {t : Tree} {p p' : Path} {x : Path × Stat} (h : x ∈ (t.rename p p').files) :
    x ∈ t.files ∨ x.1 = p' := by
  unfold Tree.rename at h
  split at h
  · exact .inl h
  · rcases List.mem_append.mp h with hx | hx
    · exact .inl (List.mem_filter.mp hx).1
    · rw [List.mem_singleton] at hx
      exact .inr (by rw [hx])

/-- Renaming a chunk to a free `.bak` path adds the chunk's `.bak` record
and drops no other. -/
theorem filesBelow_bak_rename {r p : Path} {st : Stat} {u : Tree} (hp : (p, st) ∈ u.files)
    (hb : Tree.isBelow r p = true) (hbin : ext p = ".bin") (hfree : ∀ g ∈ u.files, g.1 ≠ bakPath p) :
    filesBelow ".bak" r (u.rename p (bakPath p)).files =
      filesBelow ".bak" r u.files ++ [⟨bakPath p, st.atime, st.mtime, st.size⟩] := by
  -- the file `os.Rename` finds at `p` is the chunk
  have hfind : u.files.find? (·.1 == p) = some (p, st) := by
    have hsome : (u.files.find? (·.1 == p)).isSome := List.find?_isSome.mpr ⟨(p, st), hp, beq_self_eq_true p⟩
    obtain ⟨g, hg⟩ := Option.isSome_iff_exists.mp hsome
    have hgp : g.1 = p := by
      have hpred := List.find?_some hg
      simpa using hpred
    rw [hg, List.inj_on_of_nodup_map u.nodup (List.mem_of_find?_eq_some hg) hp hgp]
  have hkept : (filesBelow ".bak" r u.files).filter (fun i => i.path != p && i.path != bakPath p) =
      filesBelow ".bak" r u.files := by
    apply List.filter_eq_self.mpr
    intro i hi
    obtain ⟨hx, g, hg, hgi⟩ := mem_filesBelow hi
    have h1 : i.path ≠ p := fun he => absurd (hbin ▸ he ▸ hx) (by decide)
    have h2 : i.path ≠ bakPath p := fun he => hfree g hg (hgi.trans he)
    simp [h1, h2]
  have hnew : filesBelow ".bak" r [(bakPath p, st)] = [⟨bakPath p, st.atime, st.mtime, st.size⟩] := by
    simp [filesBelow, fileBelow, fileWithExt, isBelow_bakPath hb, ext_bakPath_of_ne_nil (ne_nil_of_isBelow hb)]
  unfold Tree.rename
  rw [hfind]
  dsimp only
  rw [filesBelow_append, filesBelow_filter ".bak" r (fun q => q != p && q != bakPath p), hkept, hnew]

/-- `expireFiles` adds the `.bak` record of each chunk it is given, in
order, when the chunks are files of the tree at distinct paths below `r`
and no file is at their `.bak` paths. The induction carries the three
conditions to the chunks left, past each rename. -/
theorem filesBelow_bak_expireFiles {r : Path} (fs : List FileInfo) (u : Tree)
    (hfs : ∀ f ∈ fs, (f.path, ⟨f.atime, f.mtime, f.size⟩) ∈ u.files ∧ Tree.isBelow r f.path = true ∧
      ext f.path = ".bin")
    (hnodup : (fs.map FileInfo.path).Nodup) (hfree : ∀ f ∈ fs, ∀ g ∈ u.files, g.1 ≠ bakPath f.path) :
    filesBelow ".bak" r (expireFiles fs u).files = filesBelow ".bak" r u.files ++ fs.map toBak := by
  induction fs generalizing u with
  | nil => simp [expireFiles]
  | cons f fs ih =>
    obtain ⟨hf, hb, hbin⟩ := hfs f List.mem_cons_self
    rw [List.map_cons, List.nodup_cons] at hnodup
    -- the other chunks are at other paths than `f` and its `.bak`
    have hkeep : ∀ g ∈ fs, g.path ≠ f.path ∧ g.path ≠ bakPath f.path := by
      intro g hg
      refine ⟨fun he => hnodup.1 (he ▸ List.mem_map_of_mem hg), fun he => ?_⟩
      have hgbin := (hfs g (List.mem_cons_of_mem f hg)).2.2
      exact ext_bakPath_ne (by decide) (by decide) f.path (he ▸ hgbin)
    have hfs' : ∀ g ∈ fs, (g.path, ⟨g.atime, g.mtime, g.size⟩) ∈ (u.rename f.path (bakPath f.path)).files ∧
        Tree.isBelow r g.path = true ∧ ext g.path = ".bin" := by
      intro g hg
      obtain ⟨hgu, hgb, hgbin⟩ := hfs g (List.mem_cons_of_mem f hg)
      exact ⟨(mem_rename (hkeep g hg).1 (hkeep g hg).2).mpr hgu, hgb, hgbin⟩
    have hfree' : ∀ g ∈ fs, ∀ e ∈ (u.rename f.path (bakPath f.path)).files, e.1 ≠ bakPath g.path := by
      intro g hg e he
      rcases mem_rename_files he with he | he
      · exact hfree g (List.mem_cons_of_mem f hg) e he
      · rw [he]
        exact fun hbak => (hkeep g hg).1 (bakPath_injective hbak).symm
    rw [expireFiles_cons, ih _ hfs' hnodup.2 hfree', filesBelow_bak_rename hf hb hbin (hfree f List.mem_cons_self),
      List.append_assoc, List.singleton_append]
    rfl

/-- **A run keeps each chunk it expires as a `.bak` file, and no other
`.bak` file below the directory it scanned.** The reads of an expired
chunk go on until the next run removes its `.bak`. -/
theorem main_keeps_expired_chunks_as_bak {s : SortFunc} {cacheDir : String} {targetSizeMb now : ℤ}
    {t t' : Tree} (h : main s cacheDir targetSizeMb false now t = some t') :
    filesBelow ".bak" (scanRoot t) t'.files = (findLRUFiles s (scanCache t) (wrapInt64 (targetSizeMb * MiB))).map toBak := by
  rw [main_eq (ne_of_main_eq_some h), Option.some_inj] at h
  have hbakPerm := scanCache_bakFiles_perm t
  -- the scan listed every `.bak` file below its directory, and they go first
  have hnobak : filesBelow ".bak" (scanRoot t) (removeBakFiles (scanCache t).bakFiles t).files = [] := by
    rw [removeBakFiles, filesBelow_foldl_removeFile_eq_filter]
    apply List.filter_eq_nil_iff.mpr
    intro i hi
    simpa using List.mem_map_of_mem (f := FileInfo.path) (hbakPerm.symm.subset hi)
  -- the chosen chunks are still files of the tree then, at distinct paths below the directory
  have hfs : ∀ f ∈ findLRUFiles s (scanCache t) (wrapInt64 (targetSizeMb * MiB)),
      (f.path, ⟨f.atime, f.mtime, f.size⟩) ∈ (removeBakFiles (scanCache t).bakFiles t).files ∧
      Tree.isBelow (scanRoot t) f.path = true ∧ ext f.path = ".bin" := by
    intro f hf
    obtain ⟨hg, hb, hx⟩ := mem_files_of_mem_findLRUFiles hf
    refine ⟨mem_foldl_removeFile.mpr ⟨hg, fun hmem => ?_⟩, hb, hx⟩
    obtain ⟨e, he, hep⟩ := List.mem_map.mp hmem
    have hbak := ext_of_mem_bakFiles he
    rw [hep, hx] at hbak
    exact absurd hbak (by decide)
  have hnodup : ((findLRUFiles s (scanCache t) (wrapInt64 (targetSizeMb * MiB))).map FileInfo.path).Nodup := by
    obtain ⟨k, hk, -⟩ := findLRUFiles_spec s (scanCache t) (wrapInt64 (targetSizeMb * MiB))
    rw [hk, List.map_take]
    exact (nodup_path_sort s t).sublist (List.take_sublist _ _)
  -- a file at a chunk's `.bak` path would be a `.bak` file the scan listed
  have hfree : ∀ f ∈ findLRUFiles s (scanCache t) (wrapInt64 (targetSizeMb * MiB)),
      ∀ g ∈ (removeBakFiles (scanCache t).bakFiles t).files, g.1 ≠ bakPath f.path := by
    intro f hf g hg hgf
    obtain ⟨-, hb, -⟩ := hfs f hf
    obtain ⟨hgt, hgbak⟩ := mem_foldl_removeFile.mp hg
    have hrec := mem_filesBelow_self (x := ".bak") hgt (hgf ▸ isBelow_bakPath hb)
      (hgf ▸ ext_bakPath_of_ne_nil (ne_nil_of_isBelow hb))
    exact hgbak (List.mem_map.mpr ⟨_, hbakPerm.symm.subset hrec, rfl⟩)
  rw [← h, cleanupEmptyDirs_files, filesBelow_removeOldTmpFiles (by decide),
    filesBelow_bak_expireFiles _ _ hfs hnodup hfree, hnobak, List.nil_append]

theorem expired_chunk_kept_as_bak :
    filesBelow ".bak" (scanRoot ⟨[], [(["a.bin"], ⟨1, 0, 2097152⟩), (["b.bin"], ⟨2, 0, 1048576⟩)], by decide⟩)
        (⟨[], [(["b.bin"], ⟨2, 0, 1048576⟩), (["a.bin.bak"], ⟨1, 0, 2097152⟩)], by decide⟩ : Tree).files =
      (findLRUFiles SortFunc.insertion
        (scanCache ⟨[], [(["a.bin"], ⟨1, 0, 2097152⟩), (["b.bin"], ⟨2, 0, 1048576⟩)], by decide⟩)
          (wrapInt64 (1 * MiB))).map toBak :=
  @main_keeps_expired_chunks_as_bak SortFunc.insertion "/cache" 1 0 _ _ (by decide)

/-! ## What else a run leaves -/

/-- A record of the scan, of a chunk, a `.bak` or a `.tmp` file, is at
another path than a file the scan does not recognise. -/
theorem ne_of_mem_filesBelow {x : String} {r p : Path} {fs : List (Path × Stat)} (hx : x ∈ [".bin", ".bak", ".tmp"])
    (hother : Tree.isBelow r p = true → ext p ∉ [".bin", ".bak", ".tmp"]) {i : FileInfo}
    (hi : i ∈ filesBelow x r fs) : p ≠ i.path := by
  rintro rfl
  obtain ⟨f, -, hfi⟩ := List.mem_filterMap.mp hi
  obtain ⟨hb, hext, rfl⟩ := fileBelow_eq_some.mp hfi
  exact hother hb (hext ▸ hx)

/-- **A run leaves every file it does not recognise as it is**: one outside
the directory the scan walked, or below it with none of the extensions of
the cache. With a `gcsfuse-shared-chunk-cache` subdirectory, that is every
file of the cache directory outside it. -/
theorem main_keeps_other_files {s : SortFunc} {cacheDir : String} {targetSizeMb now : ℤ} {t t' : Tree}
    (h : main s cacheDir targetSizeMb false now t = some t') {p : Path} {st : Stat} (hp : (p, st) ∈ t.files)
    (hother : Tree.isBelow (scanRoot t) p = true → ext p ∉ [".bin", ".bak", ".tmp"]) :
    (p, st) ∈ t'.files := by
  rw [main_eq (ne_of_main_eq_some h), Option.some_inj] at h
  have hbak : p ∉ (scanCache t).bakFiles.map FileInfo.path := by
    intro hmem
    obtain ⟨i, hi, hip⟩ := List.mem_map.mp hmem
    exact ne_of_mem_filesBelow (by simp) hother ((scanCache_bakFiles_perm t).subset hi) hip.symm
  have hexpired : ∀ f ∈ findLRUFiles s (scanCache t) (wrapInt64 (targetSizeMb * MiB)), p ≠ f.path ∧ p ≠ bakPath f.path := by
    intro f hf
    obtain ⟨-, hb, -⟩ := mem_files_of_mem_findLRUFiles hf
    refine ⟨ne_of_mem_filesBelow (by simp) hother
      ((scanFrom_files_perm t (scanRoot t)).subset (mem_of_mem_findLRUFiles hf)), ?_⟩
    -- the chunk's `.bak` is a `.bak` file below the scanned directory
    rintro rfl
    apply hother (isBelow_bakPath hb)
    rw [ext_bakPath_of_ne_nil (ne_nil_of_isBelow hb)]
    simp
  have htmp : p ∉ ((scanCache t).tmpFiles.filter fun f => f.mtime < now - hour).map FileInfo.path := by
    intro hmem
    obtain ⟨i, hi, hip⟩ := List.mem_map.mp hmem
    exact ne_of_mem_filesBelow (by simp) hother ((scanCache_tmpFiles_perm t).subset (List.mem_filter.mp hi).1)
      hip.symm
  rw [← h, cleanupEmptyDirs_files, removeOldTmpFiles, mem_foldl_removeFile, mem_expireFiles hexpired, removeBakFiles,
    mem_foldl_removeFile]
  exact ⟨⟨hp, hbak⟩, htmp⟩

theorem file_outside_shared_chunk_cache_kept :
    (["b.bin"], (⟨1, 0, 5⟩ : Stat)) ∈ (⟨[["gcsfuse-shared-chunk-cache"]],
      [(["b.bin"], ⟨1, 0, 5⟩), (["gcsfuse-shared-chunk-cache", "a.bin.bak"], ⟨1, 0, 5⟩)], by decide⟩ : Tree).files :=
  @main_keeps_other_files SortFunc.insertion "/cache" 0 0
    ⟨[["gcsfuse-shared-chunk-cache"]], [(["gcsfuse-shared-chunk-cache", "a.bin"], ⟨1, 0, 5⟩), (["b.bin"], ⟨1, 0, 5⟩)],
      by decide⟩
    ⟨[["gcsfuse-shared-chunk-cache"]], [(["b.bin"], ⟨1, 0, 5⟩), (["gcsfuse-shared-chunk-cache", "a.bin.bak"], ⟨1, 0, 5⟩)],
      by decide⟩
    (by decide) _ _ (by decide) (by decide)

theorem foldl_removeFile_dirs (fs : List FileInfo) (t : Tree) :
    (fs.foldl (fun t f => t.removeFile f.path) t).dirs = t.dirs := by
  induction fs generalizing t with
  | nil => rfl
  | cons f fs ih => rw [List.foldl_cons, ih, Tree.removeFile_dirs]

theorem expireFiles_dirs (fs : List FileInfo) (t : Tree) : (expireFiles fs t).dirs = t.dirs := by
  induction fs generalizing t with
  | nil => rfl
  | cons f fs ih => rw [expireFiles_cons, ih, Tree.rename_dirs]

/-- A directory `os.Remove` took was `a` itself, held no file and had no
directory below it. -/
theorem eq_of_not_mem_removeDir {t : Tree} {a d : Path} (hd : d ∈ t.dirs) (hgone : d ∉ (t.removeDir a).dirs) :
    d = a ∧ holdsFile t d = false ∧ ∀ d' ∈ t.dirs, Tree.isBelow d d' = false := by
  unfold Tree.removeDir at hgone
  split at hgone
  · exact absurd hd hgone
  · rename_i hbusy
    obtain rfl : d = a := by
      by_contra hne
      exact hgone (List.mem_filter.mpr ⟨hd, by simpa using hne⟩)
    obtain ⟨hnodir, hnofile⟩ := not_or.mp (mt Bool.or_eq_true_iff.mpr hbusy)
    exact ⟨rfl, Bool.eq_false_iff.mpr hnofile,
      fun d' hd' => Bool.eq_false_iff.mpr fun hb => hnodir (List.any_eq_true.mpr ⟨d', hd', hb⟩)⟩

/-- A directory the loop of `cleanupEmptyDirs` removes was given to it,
held no file, and has no directory below it at the end. The induction is
on the list: the step that removes it gives the first two, and the later
steps only remove directories. -/
theorem removed_of_foldl_removeDir (ds : List Path) (t : Tree) {d : Path} (hd : d ∈ t.dirs)
    (hgone : d ∉ (ds.foldl Tree.removeDir t).dirs) :
    d ∈ ds ∧ holdsFile t d = false ∧ ∀ d' ∈ (ds.foldl Tree.removeDir t).dirs, Tree.isBelow d d' = false := by
  induction ds generalizing t with
  | nil => exact absurd hd hgone
  | cons a ds ih =>
    rw [List.foldl_cons] at hgone ⊢
    by_cases hkept : d ∈ (t.removeDir a).dirs
    · obtain ⟨hds, hempty, hbelow⟩ := ih (t.removeDir a) hkept hgone
      exact ⟨List.mem_cons_of_mem a hds, holdsFile_removeDir t a d ▸ hempty, hbelow⟩
    · obtain ⟨rfl, hempty, hbelow⟩ := eq_of_not_mem_removeDir hd hkept
      exact ⟨List.mem_cons_self, hempty,
        fun d' hd' => hbelow d' (removeDir_dirs_subset t d (foldl_removeDir_dirs_subset ds _ hd'))⟩

/-- **A run removes a directory only when the scan listed it and nothing
lies below it at the end**: no file, and no directory. -/
theorem main_removes_only_empty_dirs {s : SortFunc} {cacheDir : String} {targetSizeMb now : ℤ} {t t' : Tree}
    (h : main s cacheDir targetSizeMb false now t = some t') {d : Path} (hd : d ∈ t.dirs) (hgone : d ∉ t'.dirs) :
    d ∈ (scanCache t).dirs ∧ holdsFile t' d = false ∧ ∀ d' ∈ t'.dirs, Tree.isBelow d d' = false := by
  rw [main_eq (ne_of_main_eq_some h), Option.some_inj, cleanupEmptyDirs] at h
  subst h
  -- the removals and renames before the cleanup leave the directories
  have hdirs : (removeOldTmpFiles now (scanCache t).tmpFiles (expireFiles (findLRUFiles s (scanCache t)
      (wrapInt64 (targetSizeMb * MiB))) (removeBakFiles (scanCache t).bakFiles t))).dirs = t.dirs := by
    rw [removeOldTmpFiles, foldl_removeFile_dirs, expireFiles_dirs, removeBakFiles, foldl_removeFile_dirs]
  obtain ⟨hds, hempty, hbelow⟩ := removed_of_foldl_removeDir _ _ (hdirs ▸ hd) hgone
  refine ⟨(s.perm _ _).subset hds, ?_, hbelow⟩
  rw [holdsFile, foldl_removeDir_files]
  exact hempty

theorem nested_empty_directory_child_removed :
    ["a", "b"] ∈ (scanCache ⟨[["a"], ["a", "b"]], [], List.nodup_nil⟩).dirs ∧
      holdsFile ⟨[["a"]], [], List.nodup_nil⟩ ["a", "b"] = false ∧
      ∀ d' ∈ (⟨[["a"]], [], List.nodup_nil⟩ : Tree).dirs, Tree.isBelow ["a", "b"] d' = false :=
  @main_removes_only_empty_dirs SortFunc.insertion "/cache" 0 0 ⟨[["a"], ["a", "b"]], [], List.nodup_nil⟩
    ⟨[["a"]], [], List.nodup_nil⟩ (by decide) _ (by decide) (by decide)

/-! ## The removal of empty directories -/

/-- `filepath.SplitList` of a path with no `:` in it is the path alone. -/
theorem splitList_of_colon_not_mem {path : String} (hne : path ≠ "") (h : ':' ∉ path.toList) :
    splitList path = [path] := by
  have hsplit : path.toList.splitOn ':' = [path.toList] := by
    apply List.splitOnP_eq_singleton
    intro c hc
    have hne : c ≠ ':' := fun e => h (e ▸ hc)
    simpa using hne
  rw [splitList, if_neg hne, hsplit, List.map_singleton, String.ofList_toList]

theorem joinPath_cons (cacheDir name : String) (p : Path) :
    joinPath cacheDir (name :: p) = joinPath (cacheDir ++ "/" ++ name) p :=
  rfl

/-- Joining names with no `:` in them gives a path with none, and one that
is not empty. -/
theorem joinPath_colon_not_mem {cacheDir : String} {p : Path} (hne : cacheDir ≠ "")
    (hc : ':' ∉ cacheDir.toList) (hp : ∀ name ∈ p, ':' ∉ name.toList) :
    joinPath cacheDir p ≠ "" ∧ ':' ∉ (joinPath cacheDir p).toList := by
  induction p generalizing cacheDir with
  | nil => exact ⟨hne, hc⟩
  | cons name p ih =>
    rw [joinPath_cons]
    apply ih _ _ (fun n hn => hp n (List.mem_cons_of_mem name hn))
    · intro he
      have := congrArg String.length he
      simp at this
    · have hname := hp name List.mem_cons_self
      simp only [String.toList_append, List.mem_append, not_or]
      exact ⟨⟨hc, by decide⟩, hname⟩

/-- Every directory of the cache has depth one to the comparator. -/
theorem depthCmp_eq_zero {cacheDir : String} (hne : cacheDir ≠ "") (hc : ':' ∉ cacheDir.toList) {a b : Path}
    (ha : ∀ name ∈ a, ':' ∉ name.toList) (hb : ∀ name ∈ b, ':' ∉ name.toList) : depthCmp cacheDir a b = 0 := by
  obtain ⟨hane, hac⟩ := joinPath_colon_not_mem hne hc ha
  obtain ⟨hbne, hbc⟩ := joinPath_colon_not_mem hne hc hb
  rw [depthCmp, splitList_of_colon_not_mem hane hac, splitList_of_colon_not_mem hbne hbc]
  rfl

/-- **The sort of `cleanupEmptyDirs` keeps the walk order.** No name of
the cache has the list separator in it, so every directory has depth one,
and a dozen elements or fewer `SortFunc` sorts by insertion, which keeps
equal elements in place. -/
theorem cleanupEmptyDirs_eq_foldl (s : SortFunc) {cacheDir : String} (hne : cacheDir ≠ "")
    (hc : ':' ∉ cacheDir.toList) {ds : List Path} (hds : ∀ d ∈ ds, ∀ name ∈ d, ':' ∉ name.toList)
    (hlen : ds.length ≤ 12) (t : Tree) :
    cleanupEmptyDirs s cacheDir ds t = ds.foldl Tree.removeDir t := by
  rw [cleanupEmptyDirs, s.small _ _ hlen, insertionSortCmpFunc_of_forall]
  intro a ha b hb
  rw [depthCmp_eq_zero hne hc (hds a ha) (hds b hb)]
  exact Int.lt_irrefl 0

/-- An empty directory `a` above the empty directory `a/b` survives the
run: the walk lists `a` first, it is tried first, and `a/b` is still in
it. -/
theorem nested_empty_directory_survives (s : SortFunc) (targetSizeMb now : ℤ) :
    main s "/cache" targetSizeMb false now ⟨[["a"], ["a", "b"]], [], List.nodup_nil⟩ =
      some ⟨[["a"]], [], List.nodup_nil⟩ := by
  have hscan : scanCache ⟨[["a"], ["a", "b"]], [], List.nodup_nil⟩ = ⟨[], [], [], [["a"], ["a", "b"]], 0⟩ := by
    decide
  rw [main_eq (by decide), hscan, findLRUFiles_of_files_eq_nil s rfl,
    cleanupEmptyDirs_eq_foldl s (by decide) (by decide) (by decide) (by decide)]
  rfl

end SccGc

end GcsFuse
