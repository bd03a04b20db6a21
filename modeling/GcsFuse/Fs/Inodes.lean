import GcsFuse.Fs.Name
import Mathlib.Data.List.AList
/-!
# The file system's inode tables

`internal/fs/fs.go`: the `fileSystem` keeps its live inodes by ID, and
four indexes from names to inodes: `generationBackedInodes`,
`implicitDirInodes`, `folderInodes` and `localFileInodes`. A lookup mints
an inode under the next ID and indexes it, or finds the one an index
names; it takes the inode's lock and raises its lookup count, the number
of references the kernel holds. `unlockAndDecrementLookupCount` lowers
the count, and at zero removes the inode from the ID map and from every
index whose entry for its name it is.

An index holds the ID of its inode where the code holds a pointer: IDs are
never reused, so the two name the same inode.

The model runs one handler at a time. Where the code drops `fs.mu` to
take an inode's lock and then checks that the index still names the
inode, nothing has run in between, so each retry loop takes one pass.
Taking a lock that is held never returns in such a run, and is `none`, as
a panic is.
-/

namespace GcsFuse

namespace Fs

/-- `inode.Generation`. -/
structure Generation where
  object : ℕ
  metadata : ℕ
  size : ℕ
  deriving DecidableEq, Repr

/-- `Generation.Compare`: -1, 0 or 1 as the latest generation is older
than, the same as or newer than the inode's, and 2 when only its size has
grown. -/
def Generation.compare (latest current : Generation) : ℤ :=
  if latest.object < current.object then -1
  else if current.object < latest.object then 1
  else if latest.metadata < current.metadata then -1
  else if current.metadata < latest.metadata then 1
  else if current.size < latest.size then 2
  else 0

@[simp] theorem Generation.compare_self (g : Generation) : g.compare g = 0 := by
  simp [compare]

/-- What `mintInode` reads of a `gcs.MinObject`: its generation, and
whether it is a symlink (`inode.IsSymlink`). -/
structure MinObject where
  generation : Generation
  isSymlink : Bool
  deriving DecidableEq, Repr

/-- `inode.Core`: what a lookup or a listing found for a name. `folder`
stands for a hierarchical bucket's folder, `isLocal` for the code's
`Local`. -/
structure Core where
  fullName : Name
  minObject : Option MinObject
  folder : Bool
  isLocal : Bool
  deriving DecidableEq, Repr

/-- The inode types the tables tell apart. -/
inductive Kind
  /-- `ExplicitDirInode`: a directory with a backing object, or a folder. -/
  | explicitDir
  /-- A `DirInode` that is not explicit. -/
  | implicitDir
  | symlink
  /-- `*inode.FileInode`, local or backed by an object. -/
  | file (isLocal : Bool)
  deriving DecidableEq, Repr

/-- Whether an inode of the kind is an `inode.DirInode`. -/
def Kind.isDir : Kind → Bool
  | .explicitDir | .implicitDir => true
  | _ => false

namespace Core

/-- The branch of `mintInode` a core takes. -/
def kind (ic : Core) : Kind :=
  if (ic.minObject.isSome && ic.fullName.isDir) || ic.folder then .explicitDir
  else if ic.fullName.isDir then .implicitDir
  else if ic.minObject.any MinObject.isSymlink then .symlink
  else .file ic.isLocal

/-- The generation an inode minted from the core starts from. -/
def generation (ic : Core) : Generation :=
  (ic.minObject.map MinObject.generation).getD ⟨0, 0, 0⟩

end Core

/-- What the tables read of an inode. -/
structure Inode where
  id : ℕ
  name : Name
  kind : Kind
  sourceGeneration : Generation
  unlinked : Bool
  lookupCount : ℕ
  locked : Bool
  deriving DecidableEq, Repr

/-- The inode `mintInode` makes of a core under an ID. -/
def Core.newInode (ic : Core) (id : ℕ) : Inode :=
  ⟨id, ic.fullName, ic.kind, ic.generation, false, 0, false⟩

/-- What the handlers return in error. -/
inductive FsError
  /-- `fuse.ENOENT`. -/
  | enoent
  /-- `fuse.EINVAL`. -/
  | einval
  /-- An error of the bucket or of an inode's I/O, passed on. -/
  | io
  /-- "coreToDirentPlus: stale record for %s". -/
  | stale
  /-- "local file %q disappeared". -/
  | disappeared
  /-- "cannot find %q in %q with %v tries". -/
  | tries
  /-- "weird dirent type pair for name %q". -/
  | weird
  deriving DecidableEq, Repr

/-- `fuseutil.DirentType`, as the listing sets it. -/
inductive DirentType
  | unknown
  | file
  | directory
  | link
  deriving DecidableEq, Repr

/-- `fuseutil.DirentPlus`: an entry's name and type, and `Entry.Child`,
the inode whose lookup the kernel takes with it. -/
structure DirentPlus where
  name : String
  type : DirentType
  child : ℕ
  deriving DecidableEq, Repr

/-- `handle.DirHandle`: its directory, and the listing it serves from. -/
structure DirHandle where
  dir : ℕ
  entriesPlus : List DirentPlus
  entriesPlusValid : Bool
  deriving DecidableEq, Repr

/-- A value of `fs.handles`. -/
inductive Handle
  | dir (dh : DirHandle)
  /-- `*handle.FileHandle`, on its inode. -/
  | file (inode : ℕ)
  deriving DecidableEq, Repr

/-- The four name indexes. -/
inductive Index
  | generationBacked
  | implicitDir
  | folder
  | localFile
  deriving DecidableEq, Repr

/-- A lookup in a map after an insert, by cases on the key. -/
theorem lookup_insert_ite {α β : Type*} [DecidableEq α] (s : AList fun _ : α => β) (a a' : α) (b : β) :
    (s.insert a b).lookup a' = if a' = a then some b else s.lookup a' := by
  split_ifs with h
  · subst h
    exact AList.lookup_insert s
  · exact AList.lookup_insert_ne h

/-- `fuseops.RootInodeID`. -/
def rootInodeID : ℕ := 1

/-- The root of a mount of one bucket, `makeRootForBucket`, with the
kernel's one lookup. -/
def rootInode : Inode := ⟨rootInodeID, Name.newRootName "", .implicitDir, ⟨0, 0, 0⟩, false, 1, false⟩

/-- `fileSystem`: `mu` says whether `fs.mu` is held. -/
structure FileSystem where
  mu : Bool
  inodes : AList fun _ : ℕ => Inode
  nextInodeID : ℕ
  generationBackedInodes : AList fun _ : Name => ℕ
  implicitDirInodes : AList fun _ : Name => ℕ
  folderInodes : AList fun _ : Name => ℕ
  localFileInodes : AList fun _ : Name => ℕ
  handles : AList fun _ : ℕ => Handle
  nextHandleID : ℕ

namespace FileSystem

variable (fs : FileSystem)

/-- The index `ix` of the file system. -/
def index : Index → AList fun _ : Name => ℕ
  | .generationBacked => fs.generationBackedInodes
  | .implicitDir => fs.implicitDirInodes
  | .folder => fs.folderInodes
  | .localFile => fs.localFileInodes

/-- Replace the index `ix`. -/
def setIndex : Index → (AList fun _ : Name => ℕ) → FileSystem
  | .generationBacked, m => { fs with generationBackedInodes := m }
  | .implicitDir, m => { fs with implicitDirInodes := m }
  | .folder, m => { fs with folderInodes := m }
  | .localFile, m => { fs with localFileInodes := m }

/-- Apply `f` to the live inode `id`. -/
def update (id : ℕ) (f : Inode → Inode) : FileSystem :=
  match fs.inodes.lookup id with
  | some i => { fs with inodes := fs.inodes.insert id (f i) }
  | none => fs

/-- `fs.mu.Lock()`. -/
def lockMu : Option FileSystem :=
  if fs.mu then none else some { fs with mu := true }

/-- `fs.mu.Unlock()`. -/
def unlockMu : FileSystem := { fs with mu := false }

/-- `in.Lock()`. -/
def lock (id : ℕ) : Option FileSystem :=
  match fs.inodes.lookup id with
  | some i => if i.locked then none else some (fs.update id fun i => { i with locked := true })
  | none => none

/-- `in.Unlock()`. -/
def unlock (id : ℕ) : FileSystem := fs.update id fun i => { i with locked := false }

/-- `IncrementLookupCount`; `none` for an inode no longer live, where
`Inc` panics on a destroyed one. -/
def incrementLookupCount (id : ℕ) : Option FileSystem :=
  (fs.inodes.lookup id).map fun _ => fs.update id fun i => { i with lookupCount := i.lookupCount + 1 }

/-- `dirInodeOrDie`. -/
def dirInodeOrDie (id : ℕ) : Option Inode :=
  (fs.inodes.lookup id).filter fun i => i.kind.isDir

/-- `mintInode`: the next ID, and the inode of the kind the core names,
placed in the ID map. A symlink whose target cannot be read
(`resolved = false`, `NewSymlinkInode`'s error) is not placed, but its ID
is used up. -/
def mintInode (ic : Core) (resolved : Bool) : Except FsError ℕ × FileSystem :=
  let id := fs.nextInodeID
  let fs' := { fs with nextInodeID := id + 1 }
  if ic.kind = .symlink ∧ resolved = false then (.error .io, fs')
  else (.ok id, { fs' with inodes := fs'.inodes.insert id (ic.newInode id) })

/-- Mint an inode for the core, enter it in the index `ix` under its name
and take its lock: the path of `createDirInode` and of
`lookUpOrCreateInodeIfNotStale` for a name the index lacks or whose inode
is stale. -/
def mintIndexed (ic : Core) (resolved : Bool) (ix : Index) : Option (Except FsError ℕ × FileSystem) :=
  match fs.mintInode ic resolved with
  | (.error e, fs') => some (.error e, fs')
  | (.ok id, fs') => ((fs'.setIndex ix ((fs'.index ix).insert ic.fullName id)).lock id).map (.ok id, ·)

/-- `createDirInode`, on the index `ix` (`implicitDirInodes` or
`folderInodes`): the indexed inode, locked, unless it is unlinked; else a
new one in its place. -/
def createDirInode (ic : Core) (ix : Index) : Option (Except FsError ℕ × FileSystem) :=
  match (fs.index ix).lookup ic.fullName with
  | some id =>
    match fs.inodes.lookup id with
    | some i => if i.unlinked then fs.mintIndexed ic true ix else (fs.lock id).map (.ok id, ·)
    | none => none
  | none => fs.mintIndexed ic true ix

/-- The retry loop of `lookUpOrCreateInodeIfNotStale` for an object of
generation `g`: the indexed inode, locked, where the generations agree
(its size brought up where only that grew); `none` where the inode is
newer, the caller then looking again; and a new inode in its place where
the object is newer. -/
def lookUpGenerationBacked (ic : Core) (g : Generation) (resolved : Bool) :
    Option (Except FsError (Option ℕ) × FileSystem) :=
  match fs.generationBackedInodes.lookup ic.fullName with
  | none => (fs.mintIndexed ic resolved .generationBacked).map fun (r, fs') => (r.map some, fs')
  | some id =>
    match fs.inodes.lookup id with
    | none => none
    | some i =>
      (fs.lock id).bind fun fs' =>
        let cmp := g.compare i.sourceGeneration
        if cmp = 0 then some (.ok (some id), fs')
        else if cmp = 2 then
          some (.ok (some id), fs'.update id fun i => { i with sourceGeneration := g })
        else if cmp = -1 then some (.ok none, fs'.unlock id)
        else ((fs'.unlock id).mintIndexed ic resolved .generationBacked).map fun (r, fs'') => (r.map some, fs'')

/-- `lookUpOrCreateInodeIfNotStale`: under `fs.mu`, the inode of the core
from the folder, implicit directory or generation-backed path, its lookup
count raised on the way out; `none` inside `ok` for a stale record. -/
def lookUpOrCreateInodeIfNotStale (ic : Core) (resolved : Bool) :
    Option (Except FsError (Option ℕ) × FileSystem) := do
  let fs ← fs.lockMu
  let (r, fs) ← if ic.folder then
      (fs.createDirInode ic .folder).map fun (r, fs') => (r.map some, fs')
    else match ic.minObject with
      | none => (fs.createDirInode ic .implicitDir).map fun (r, fs') => (r.map some, fs')
      | some m => fs.lookUpGenerationBacked ic m.generation resolved
  match r with
  | .ok (some id) => (fs.incrementLookupCount id).map fun fs => (r, fs.unlockMu)
  | _ => some (r, fs.unlockMu)

/-- `ConflictingFileNameSuffix`. -/
def conflictingFileNameSuffix : String := "\n"

/-- `lookUpLocalFileInode`: the parent's local file of that name, locked,
its lookup count raised; none for a name with no local file or with an
unlinked one. `NewFileName`'s panic is `none`. -/
def lookUpLocalFileInode (parent : Name) (childName : String) :
    Option (Except FsError (Option ℕ) × FileSystem) :=
  if childName = conflictingFileNameSuffix then some (.error .enoent, fs)
  else do
    let fileName ← parent.newFileName (trimSuffix childName conflictingFileNameSuffix)
    let fs ← fs.lockMu
    match fs.localFileInodes.lookup fileName with
    | none => some (.ok none, fs.unlockMu)
    | some id =>
      let fs ← fs.lock id
      let i ← fs.inodes.lookup id
      if i.unlinked then some (.ok none, (fs.unlock id).unlockMu)
      else (fs.incrementLookupCount id).map fun fs => (.ok (some id), fs.unlockMu)

/-- An inode's removal: `delete` from the ID map, and from each index
whose entry for its name it is. -/
def dispose (i : Inode) : FileSystem :=
  let drop (m : AList fun _ : Name => ℕ) := if m.lookup i.name = some i.id then m.erase i.name else m
  let fs' := { fs with inodes := fs.inodes.erase i.id }
  let fs' := { fs' with generationBackedInodes := drop fs.generationBackedInodes }
  let fs' := { fs' with implicitDirInodes := drop fs.implicitDirInodes }
  let fs' := { fs' with localFileInodes := drop fs.localFileInodes }
  { fs' with folderInodes := drop fs.folderInodes }

/-- `unlockAndDecrementLookupCount`: `Dec` panics where `n` is more than
the count; at zero the inode is disposed of, and otherwise unlocked with
the lower count. -/
def unlockAndDecrementLookupCount (id n : ℕ) : Option FileSystem := do
  let i ← fs.inodes.lookup id
  if i.lookupCount < n then none
  else if i.lookupCount - n = 0 then some (fs.dispose i)
  else some ((fs.update id fun i => { i with lookupCount := i.lookupCount - n }).unlock id)

/-- `unlockAndMaybeDisposeOfInode`: unlock after a success, and hand the
kernel's unreturned reference back after an error. -/
def unlockAndMaybeDisposeOfInode (id : ℕ) (failed : Bool) : Option FileSystem :=
  if failed then fs.unlockAndDecrementLookupCount id 1 else some (fs.unlock id)

/-- `NewFileSystem`'s tables: the root in the ID map and in
`implicitDirInodes` and `folderInodes`. -/
def new : FileSystem where
  mu := false
  inodes := (∅ : AList fun _ : ℕ => Inode).insert rootInodeID rootInode
  nextInodeID := rootInodeID + 1
  generationBackedInodes := ∅
  implicitDirInodes := (∅ : AList fun _ : Name => ℕ).insert rootInode.name rootInodeID
  folderInodes := (∅ : AList fun _ : Name => ℕ).insert rootInode.name rootInodeID
  localFileInodes := ∅
  handles := ∅
  nextHandleID := 0

/-- The invariants documented on `fileSystem`'s fields and checked by
`checkInvariants`, a field for each clause. -/
structure Invariants : Prop where
  /-- `RootInodeID <= k < nextInodeID` for every key of `inodes`. -/
  id_range : ∀ id ∈ fs.inodes, rootInodeID ≤ id ∧ id < fs.nextInodeID
  /-- `inodes[k].ID() == k`. -/
  id_eq : ∀ id i, fs.inodes.lookup id = some i → i.id = id
  /-- `inodes[RootInodeID]` is missing or a `DirInode`. -/
  root_dir : ∀ i, fs.inodes.lookup rootInodeID = some i → i.kind.isDir
  /-- An inode of a directory's name is a `DirInode`. -/
  dir_of_name : ∀ id i, fs.inodes.lookup id = some i → i.name.isDir → i.kind.isDir
  /-- Each index names live inodes of the entry's name. -/
  index_live : ∀ ix name id, (fs.index ix).lookup name = some id →
    ∃ i, fs.inodes.lookup id = some i ∧ i.name = name
  /-- `implicitDirInodes` holds no `ExplicitDirInode`. -/
  implicit_not_explicit : ∀ name id i, fs.implicitDirInodes.lookup name = some id →
    fs.inodes.lookup id = some i → i.kind ≠ .explicitDir
  /-- A `DirInode` that is not explicit is its name's `implicitDirInodes` entry. -/
  implicit_indexed : ∀ id i, fs.inodes.lookup id = some i → i.kind = .implicitDir →
    fs.implicitDirInodes.lookup i.name = some id
  /-- `localFileInodes` holds file inodes. -/
  local_file : ∀ name id i, fs.localFileInodes.lookup name = some id →
    fs.inodes.lookup id = some i → ∃ l, i.kind = .file l
  /-- A local file inode that is not unlinked is its name's
  `localFileInodes` entry. -/
  local_indexed : ∀ id i, fs.inodes.lookup id = some i → i.kind = .file true → i.unlinked = false →
    fs.localFileInodes.lookup i.name = some id
  /-- `k < nextHandleID` for every key of `handles`. -/
  handle_lt : ∀ h ∈ fs.handles, h < fs.nextHandleID

/-- **A new file system keeps its invariants.** -/
theorem new_invariants : new.Invariants where
  id_range id h := by
    simp only [new, AList.mem_insert, AList.notMem_empty, or_false] at h
    subst h
    decide
  id_eq id i h := by
    simp only [new, lookup_insert_ite, AList.lookup_empty] at h
    split_ifs at h with hid
    cases h
    exact hid.symm
  root_dir i h := by
    simp only [new, lookup_insert_ite, AList.lookup_empty, if_true, Option.some.injEq] at h
    subst h
    rfl
  dir_of_name id i h _ := by
    simp only [new, lookup_insert_ite, AList.lookup_empty] at h
    split_ifs at h
    cases h
    rfl
  index_live ix name id h := by
    cases ix
    case implicitDir | folder =>
      simp only [new, index, lookup_insert_ite, AList.lookup_empty] at h
      split_ifs at h with hname
      cases h
      exact ⟨rootInode, AList.lookup_insert _, hname.symm⟩
    all_goals simp [new, index] at h
  implicit_not_explicit name id i h hi := by
    simp only [new, lookup_insert_ite, AList.lookup_empty] at h hi
    split_ifs at h hi
    cases h
    cases hi
    simp [rootInode]
  implicit_indexed id i h _ := by
    simp only [new, lookup_insert_ite, AList.lookup_empty] at h
    split_ifs at h with hid
    cases h
    exact hid ▸ AList.lookup_insert _
  local_file name id i h := by
    simp [new] at h
  local_indexed id i h hkind := by
    simp only [new, lookup_insert_ite, AList.lookup_empty] at h
    split_ifs at h
    cases h
    cases hkind
  handle_lt h hh := by
    simp [new] at hh

end FileSystem

end Fs

end GcsFuse
