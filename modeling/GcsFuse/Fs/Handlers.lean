import GcsFuse.Fs.Inodes
import GcsFuse.Common.Run
import Mathlib.Data.List.Sort
/-!
# FUSE handlers and the kernel's lookup counts

`LookUpInode`, `CreateFile`, `OpenDir`, `ReadDirPlus` and `ForgetInode`
of `internal/fs/fs.go`, over the inode tables of `Fs.Inodes`, with the
helpers they hand locked, counted inodes through. What the bucket and the
inodes' I/O answer during a handler is an argument of the request
(`Answers`), so every statement holds whatever they answer.

A `Mount` pairs the file system with the lookup count the kernel holds of
each inode ID: an entry of a reply hands the kernel one lookup of its
inode, and `ForgetInode` hands back `n`. The code keeps its own count
(`lookupCount`) in step with the kernel's by raising it wherever it
fetches an inode for a reply.
-/

namespace GcsFuse

namespace Fs

/-- What the bucket and the inodes' I/O answer during one handler: the
`t`-th `LookUpChild` of the lookup's retry loop, the listing
`readAllEntryCores` reads, whether an inode's `Attributes` succeed,
whether a symlink's target can be read, and whether
`createBufferedWriteHandlerAndSyncOrTempWriter` succeeds. -/
structure Answers where
  lookUpChild : ℕ → Except FsError (Option Core)
  entryCores : Except FsError (List Core)
  attributes : Name → Bool
  resolved : Name → Bool
  writer : Bool

/-- The entry type `coreToDirentPlus` sets from `core.Type()`. -/
def Core.direntType (c : Core) : DirentType :=
  if c.minObject.isNone && !c.folder && !c.isLocal then .directory
  else if c.fullName.isDir then .directory
  else if c.minObject.any MinObject.isSymlink then .link
  else .file

/-- One step of `fixConflictingNames` over entries sorted by name; `out`
holds the entries kept so far, the last first. Of two entries of one
name, the one that is not a directory gets the conflict suffix, and a
local file listed by the bucket too is kept once. -/
def fixConflictingStep (localEntries : List DirentPlus) (out : List DirentPlus) (e : DirentPlus) :
    Except FsError (List DirentPlus) :=
  match out with
  | [] => .ok [e]
  | prev :: rest =>
    if e.name ≠ prev.name then .ok (e :: out)
    else if (e.type == .directory) = (prev.type == .directory) then
      if localEntries.any (·.name == e.name) && e.type != .directory then .ok out
      else .error .weird
    else if e.type = .directory then
      .ok (e :: { prev with name := prev.name ++ FileSystem.conflictingFileNameSuffix } :: rest)
    else .ok ({ e with name := e.name ++ FileSystem.conflictingFileNameSuffix } :: out)

/-- `fixConflictingNames`. -/
def fixConflictingNames (entries localEntries : List DirentPlus) : Except FsError (List DirentPlus) :=
  (entries.foldlM (fixConflictingStep localEntries) []).map List.reverse

/-- `sortAndResolveEntries`: the local entries after the listing's,
sorted by name, conflicts fixed. -/
def sortAndResolveEntries (entries localEntries : List DirentPlus) : Except FsError (List DirentPlus) :=
  fixConflictingNames ((entries ++ localEntries).insertionSort fun a b => a.name ≤ b.name) localEntries

/-- **A local copy of a conflicting file repeats a name.** The bucket lists
a file "a" and a directory "a/", and "a" is also a local file not yet
removed from the local entries. The repair compares each entry with the
last one kept only: the bucket's file is renamed "a\n" before the
directory, and the local file, now next to the directory, is renamed
"a\n" too instead of being dropped. The names are not distinct, and not
in order. -/
theorem local_copy_of_conflicting_file_repeats_name :
    ∃ es, sortAndResolveEntries [⟨"a", .file, 2⟩, ⟨"a", .directory, 3⟩] [⟨"a", .file, 4⟩] = .ok es ∧
      es.map DirentPlus.name = ["a\n", "a", "a\n"] ∧ ¬ (es.map DirentPlus.name).Nodup ∧
      ¬ (es.map DirentPlus.name).Pairwise (· ≤ ·) :=
  ⟨_, rfl, by decide, by decide, by decide⟩

namespace DirHandle

/-- `FetchEntryCores`: a call at offset zero drops the handle's listing;
the bucket is listed where the handle holds none. -/
def fetchEntryCores (dh : DirHandle) (offset : ℕ) (cores : Except FsError (List Core)) :
    DirHandle × Except FsError (List Core) :=
  let dh := if offset = 0 then { dh with entriesPlus := [], entriesPlusValid := false } else dh
  (dh, if dh.entriesPlusValid then .ok [] else cores)

/-- `ReadDirPlus` of the handle: the listing, built once, and from the
offset as many of its entries as the reply has room for. -/
def readDirPlus (dh : DirHandle) (offset room : ℕ) (entries localEntries : List DirentPlus) :
    DirHandle × Except FsError (List DirentPlus) :=
  let built : Except FsError DirHandle :=
    if dh.entriesPlusValid then .ok dh
    else (sortAndResolveEntries entries localEntries).map fun es =>
      { dh with entriesPlus := es, entriesPlusValid := true }
  match built with
  | .error e => (dh, .error e)
  | .ok dh =>
    if dh.entriesPlus.length < offset then (dh, .error .einval)
    else (dh, .ok ((dh.entriesPlus.drop offset).take room))

end DirHandle

namespace FileSystem

variable (fs : FileSystem) (ans : Answers)

/-- `maxTries` of `lookUpOrCreateChildInode`. -/
def maxTries : ℕ := 3

/-- The retry loop of `lookUpOrCreateChildInode`, at try `t` with `n`
tries left: a stale record sends it round again. -/
def lookUpChildLoop : FileSystem → ℕ → ℕ → Option (Except FsError ℕ × FileSystem)
  | fs, 0, _ => some (.error .tries, fs)
  | fs, n + 1, t =>
    match ans.lookUpChild t with
    | .error e => some (.error e, fs)
    | .ok none => some (.error .enoent, fs)
    | .ok (some core) => do
      let (r, fs') ← fs.lookUpOrCreateInodeIfNotStale core (ans.resolved core.fullName)
      match r with
      | .error e => some (.error e, fs')
      | .ok (some id) => some (.ok id, fs')
      | .ok none => lookUpChildLoop fs' n (t + 1)

/-- `lookUpOrCreateChildInode`: the parent's local file of the name, or
the inode of what the bucket's lookup finds, locked, its lookup count
raised. -/
def lookUpOrCreateChildInode (parent : Name) (childName : String) :
    Option (Except FsError ℕ × FileSystem) := do
  let (r, fs) ← fs.lookUpLocalFileInode parent childName
  match r with
  | .error e => some (.error e, fs)
  | .ok (some id) => some (.ok id, fs)
  | .ok none => lookUpChildLoop ans fs maxTries 0

/-- The function `createLocalFile` defers, on a return with a child, with
`fs.mu` held: after an error it deletes the child's `localFileInodes`
entry; in every case it drops `fs.mu`, locks the child and raises its
lookup count. -/
def createLocalFileDefer (child : ℕ) (failed : Bool) : Option FileSystem := do
  let i ← fs.inodes.lookup child
  let fs := if failed then { fs with localFileInodes := fs.localFileInodes.erase i.name } else fs
  let fs ← fs.unlockMu.lock child
  fs.incrementLookupCount child

/-- `createLocalFile` for a name with no live local file: a new local
file inode (`CreateLocalChildFileCore`), entered in `localFileInodes`,
whose writer is set up under its lock with `fs.mu` dropped; the deferred
`fs.mu.Lock()` runs before `createLocalFileDefer`. -/
def createLocalFileNew (fullName : Name) (writer : Bool) : Option (Except FsError ℕ × FileSystem) :=
  match fs.mintInode ⟨fullName, none, false, true⟩ true with
  | (.error e, fs') => some (.error e, fs')
  | (.ok id, fs') => do
    let fs' := { fs' with localFileInodes := fs'.localFileInodes.insert fullName id }
    let fs' ← fs'.unlockMu.lock id
    let fs' ← (fs'.unlock id).lockMu
    let fs' ← fs'.createLocalFileDefer id !writer
    some (if writer then .ok id else .error .io, fs')

/-- `createLocalFile`: the parent's live local file of the name, or a new
one. -/
def createLocalFile (parentID : ℕ) (name : String) (writer : Bool) :
    Option (Except FsError ℕ × FileSystem) := do
  let fs ← fs.lockMu
  let parent ← fs.dirInodeOrDie parentID
  let fullName ← parent.name.newFileName name
  match fs.localFileInodes.lookup fullName with
  | some id =>
    let child ← fs.inodes.lookup id
    if child.unlinked then fs.createLocalFileNew fullName writer
    else (fs.createLocalFileDefer id false).map (.ok id, ·)
  | none => fs.createLocalFileNew fullName writer

/-- `localFileEntriesPlus`: an entry for each local file directly below
the parent that is not unlinked, named by the base of its name. -/
def localFileEntriesPlus (parent : Name) : List DirentPlus :=
  fs.localFileInodes.entries.filterMap fun e =>
    if (fs.inodes.lookup e.2).any Inode.unlinked then none
    else if e.1.isDirectChildOf parent then some ⟨pathBase e.1.localName, .file, e.2⟩
    else none

/-- `lookupAndFetchAttributesForLocalFileEntriesPlus`: look each local
entry up under its parent, read its attributes and set its child; the
first failure ends the loop, with the lookups before it counted. -/
def lookupAndFetchAttributesForLocalFileEntriesPlus (parent : Name) :
    FileSystem → List DirentPlus → Option (Except FsError (List DirentPlus) × FileSystem)
  | fs, [] => some (.ok [], fs)
  | fs, e :: es => do
    let (r, fs) ← fs.lookUpLocalFileInode parent e.name
    match r with
    | .error err => some (.error err, fs)
    | .ok none => some (.error .disappeared, fs)
    | .ok (some child) =>
      let i ← fs.inodes.lookup child
      let fs := fs.unlock child
      if ans.attributes i.name then
        (lookupAndFetchAttributesForLocalFileEntriesPlus parent fs es).map fun (r, fs) =>
          (r.map ({ e with child } :: ·), fs)
      else some (.error .io, fs)

/-- `coreToDirentPlus`: the entry of a listed core, its inode looked up
or minted, counted and unlocked again. -/
def coreToDirentPlus (core : Core) : Option (Except FsError DirentPlus × FileSystem) := do
  let (r, fs) ← fs.lookUpOrCreateInodeIfNotStale core (ans.resolved core.fullName)
  match r with
  | .error e => some (.error e, fs)
  | .ok none => some (.error .stale, fs)
  | .ok (some child) =>
    let entry : DirentPlus := ⟨pathBase core.fullName.localName, core.direntType, child⟩
    some (if ans.attributes core.fullName then .ok entry else .error .io, fs.unlock child)

/-- The loop of `ReadDirPlus` over the listed cores. -/
def coresToDirentPlus : FileSystem → List Core → Option (Except FsError (List DirentPlus) × FileSystem)
  | fs, [] => some (.ok [], fs)
  | fs, c :: cs => do
    let (r, fs) ← fs.coreToDirentPlus ans c
    match r with
    | .error e => some (.error e, fs)
    | .ok entry => (coresToDirentPlus fs cs).map fun (r, fs) => (r.map (entry :: ·), fs)

/-- Replace the directory handle `h`. -/
def setDirHandle (h : ℕ) (dh : DirHandle) : FileSystem :=
  { fs with handles := fs.handles.insert h (.dir dh) }

/-- `LookUpInode`: the child's inode, its attributes read under its lock;
an error there hands the reference back. -/
def lookUpInode (parentID : ℕ) (name : String) : Option (Except FsError (List ℕ) × FileSystem) := do
  let fs ← fs.lockMu
  let parent ← fs.dirInodeOrDie parentID
  let (r, fs) ← fs.unlockMu.lookUpOrCreateChildInode ans parent.name name
  match r with
  | .error e => some (.error e, fs)
  | .ok child =>
    let i ← fs.inodes.lookup child
    let ok := ans.attributes i.name
    let fs ← fs.unlockAndMaybeDisposeOfInode child !ok
    some (if ok then .ok [child] else .error .io, fs)

/-- `CreateFile` with `CreateEmptyFile` off: a local file, a file handle
on it, and its attributes; an error there hands the reference back. -/
def createFile (parentID : ℕ) (name : String) : Option (Except FsError (List ℕ) × FileSystem) := do
  let (r, fs) ← fs.createLocalFile parentID name ans.writer
  match r with
  | .error e => some (.error e, fs)
  | .ok child =>
    let fs ← fs.lockMu
    let fs := { fs with handles := fs.handles.insert fs.nextHandleID (.file child) }
    let fs := { fs with nextHandleID := fs.nextHandleID + 1 }
    let i ← fs.unlockMu.inodes.lookup child
    let ok := ans.attributes i.name
    let fs ← fs.unlockMu.unlockAndMaybeDisposeOfInode child !ok
    some (if ok then .ok [child] else .error .io, fs)

/-- `OpenDir`: a directory handle with no listing. -/
def openDir (id : ℕ) : Option (Except FsError (List ℕ) × FileSystem) := do
  let fs ← fs.lockMu
  let _ ← fs.dirInodeOrDie id
  let fs := { fs with handles := fs.handles.insert fs.nextHandleID (.dir ⟨id, [], false⟩) }
  let fs := { fs with nextHandleID := fs.nextHandleID + 1 }
  some (.ok [], fs.unlockMu)

/-- `ReadDirPlus`: the local entries are looked up on every call, the
bucket's cores only when the handle has no listing, and the reply
carries the handle's listing from the offset. -/
def readDirPlus (h dirID offset room : ℕ) : Option (Except FsError (List ℕ) × FileSystem) := do
  let fs ← fs.lockMu
  let dh ← match fs.handles.lookup h with
    | some (.dir dh) => some dh
    | _ => none
  let dir ← fs.dirInodeOrDie dirID
  let localEntries := fs.localFileEntriesPlus dir.name
  let (r, fs) ← lookupAndFetchAttributesForLocalFileEntriesPlus ans dir.name fs.unlockMu localEntries
  match r with
  | .error e => some (.error e, fs)
  | .ok localEntries =>
    let (dh, cores) := dh.fetchEntryCores offset ans.entryCores
    let fs := fs.setDirHandle h dh
    match cores with
    | .error e => some (.error e, fs)
    | .ok cores => do
      let (r, fs) ← coresToDirentPlus ans fs cores
      match r with
      | .error e => some (.error e, fs)
      | .ok entries =>
        let (dh, r) := dh.readDirPlus offset room entries localEntries
        some (r.map (·.map DirentPlus.child), fs.setDirHandle h dh)

/-- `ForgetInode`: lower the inode's count by `n` under its lock. -/
def forgetInode (id n : ℕ) : Option FileSystem := do
  let fs ← fs.lockMu
  let _ ← fs.inodes.lookup id
  let fs ← fs.unlockMu.lock id
  fs.unlockAndDecrementLookupCount id n

end FileSystem

/-- A FUSE request, with what the bucket answers while it is served. -/
inductive Op
  | lookUpInode (parent : ℕ) (name : String) (ans : Answers)
  | createFile (parent : ℕ) (name : String) (ans : Answers)
  | openDir (inode : ℕ)
  | readDirPlus (handle inode offset room : ℕ) (ans : Answers)
  | forgetInode (inode n : ℕ)

/-- Serve a request: the reply's entries hand the kernel their inodes. -/
def FileSystem.serve (fs : FileSystem) : Op → Option (Except FsError (List ℕ) × FileSystem)
  | .lookUpInode parent name ans => fs.lookUpInode ans parent name
  | .createFile parent name ans => fs.createFile ans parent name
  | .openDir id => fs.openDir id
  | .readDirPlus h id offset room ans => fs.readDirPlus ans h id offset room
  | .forgetInode id n => (fs.forgetInode id n).map (.ok [], ·)

/-- What the kernel holds after a reply: one more lookup of each inode an
entry hands it, and `n` fewer of an inode it forgets. -/
def kernelAfter (kernel : ℕ → ℕ) : Op → Except FsError (List ℕ) → ℕ → ℕ
  | .forgetInode id n, _ => Function.update kernel id (kernel id - n)
  | _, .ok ids => fun k => kernel k + ids.count k
  | _, .error _ => kernel

/-- A mounted file system, and the lookup count the kernel holds of each
inode ID. -/
structure Mount where
  fs : FileSystem
  kernel : ℕ → ℕ

/-- One request served. -/
def Mount.step (m : Mount) (op : Op) : Option Mount :=
  (m.fs.serve op).map fun (r, fs) => ⟨fs, kernelAfter m.kernel op r⟩

/-- A new mount: the kernel holds the root. -/
def Mount.new : Mount := ⟨FileSystem.new, fun id => if id = rootInodeID then 1 else 0⟩

/-- A bucket that holds nothing, and I/O that always succeeds. -/
def emptyBucket : Answers := ⟨fun _ => .ok none, .ok [], fun _ => true, fun _ => true, true⟩

/-- The same, with the writer's set-up failing: the sync that creates a
zonal bucket's object, or the temp file's creation. -/
def writerFails : Answers := { emptyBucket with writer := false }

/-- **A failed `CreateFile` leaves its inode behind, locked and counted.**
When the writer's set-up fails, the deferred function of
`createLocalFile` still locks the new inode and raises its count, and
`CreateFile` returns the error before it defers
`unlockAndMaybeDisposeOfInode`: `fs.mu` is free, but the inode minted
during the call stays in the ID map, locked, with a lookup count of one
that no reply handed the kernel. -/
theorem failed_create_leaves_child_locked :
    ∃ fs, FileSystem.new.serve (.createFile rootInodeID "f" writerFails) = some (.error .io, fs) ∧
      fs.mu = false ∧ FileSystem.new.inodes.lookup 2 = none ∧
      (fs.inodes.lookup 2).map (fun i => (i.locked, i.lookupCount)) = some (true, 1) ∧
      fs.localFileInodes.lookup ⟨"", "f"⟩ = none :=
  ⟨_, rfl, rfl, rfl, rfl, rfl⟩

/-- **A failed `CreateFile` breaks the local-file index.** The new file
system keeps every invariant of `checkInvariants`; after the writer's
set-up fails, the inode left behind is local and not unlinked, and the
deferred function has deleted its `localFileInodes` entry. -/
theorem failed_create_breaks_local_index :
    FileSystem.new.Invariants ∧
      ∃ fs, FileSystem.new.serve (.createFile rootInodeID "f" writerFails) = some (.error .io, fs) ∧
        ¬ fs.Invariants := by
  refine ⟨FileSystem.new_invariants, _, rfl, fun hinv => ?_⟩
  have hindexed := hinv.local_indexed 2 _ rfl rfl rfl
  exact absurd hindexed (by decide)

/-- **Re-reading a directory counts its local files again.** After a
local file is created and its directory read to the end, the read at the
end offset looks the local file up once more and raises its count, but
its reply holds no entry: the kernel holds two lookups and the file
system counts three, so when the kernel forgets both the inode stays. -/
theorem rereading_directory_overcounts_local_file :
    ∃ m m', Run.run Mount.step Mount.new [.createFile rootInodeID "f" emptyBucket, .openDir rootInodeID,
        .readDirPlus 1 rootInodeID 0 10 emptyBucket, .readDirPlus 1 rootInodeID 1 10 emptyBucket] = some m ∧
      m.kernel 2 = 2 ∧ (m.fs.inodes.lookup 2).map Inode.lookupCount = some 3 ∧
      m.step (.forgetInode 2 2) = some m' ∧ m'.kernel 2 = 0 ∧
      (m'.fs.inodes.lookup 2).map Inode.lookupCount = some 1 :=
  ⟨_, _, rfl, rfl, rfl, rfl, rfl, rfl⟩

end Fs

end GcsFuse
