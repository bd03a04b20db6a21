import GcsFuse.Fs.Name
import GcsFuse.FileCache.Handler
/-!
# The file cache after a file is removed

`fileSystem.invalidateChildFileCacheIfExist` erases the file-info cache's
entry of an object: `InvalidateCache` builds the key from the bucket and
the name it is given, which it takes for the object's GCS name. Four
callers reach it once a file's object is gone: `Unlink` passes the
child's full object name, and the loop of `renameNonHierarchicalDir`
the descendant's object name; `atomicRename` and `nonAtomicRename` pass
`oldName`, the name the kernel gave the child in its old parent.

Below the bucket's root that name is not the object's
(`Name.gcsObjectName_newFileName_ne`), so a renamed file's entry stays
and the entry of the object at the root with the child's name is erased
instead (`rename_invalidates_wrong_entry`).

The mount has one bucket, the file cache's: a directory that belongs to a
bucket belongs to that one.
-/

namespace GcsFuse

namespace Fs

open FileCache Gcs

open Handler (System invalidateCache)

/-- What the helper reads of a directory inode: its name, and the bucket
it belongs to; none for the base directory that holds the buckets'
roots. -/
structure DirInode where
  name : Name
  bucket : Option String

/-- The helper's error: `ENOTSUP` for the base directory. -/
inductive InvalidateError
  | notSupported
  deriving DecidableEq, Repr

section Calls

variable (cfg : FileCache.Config)

/-- `invalidateChildFileCacheIfExist`: with a file cache, the cache with
the entry of `objectGCSName` erased. -/
def invalidateChildFileCacheIfExist (fileCacheHandler : Option System) (parentInode : DirInode)
    (objectGCSName : String) : Except InvalidateError (Option System) :=
  match parentInode.bucket with
  | some _ => .ok (fileCacheHandler.map fun sys => invalidateCache cfg sys objectGCSName)
  | none => .error .notSupported

/-- The end of `Unlink`, once the delete succeeded or failed its
precondition: the child's full object name. `none` is the panic of
`NewFileName`. -/
def unlinkInvalidate (fileCacheHandler : Option System) (parent : DirInode) (name : String) :
    Option (Except InvalidateError (Option System)) :=
  (parent.name.newFileName name).map fun fileName =>
    invalidateChildFileCacheIfExist cfg fileCacheHandler parent fileName.gcsObjectName

/-- The end of `atomicRename`, once `RenameFile` moved the object: the
old name in the old parent. -/
def atomicRenameInvalidate (fileCacheHandler : Option System) (oldParent : DirInode) (oldName : String) :
    Except InvalidateError (Option System) :=
  invalidateChildFileCacheIfExist cfg fileCacheHandler oldParent oldName

/-- The end of `nonAtomicRename`, once the delete behind the clone
succeeded or failed its precondition: the old name in the old parent. -/
def nonAtomicRenameInvalidate (fileCacheHandler : Option System) (oldParent : DirInode) (oldName : String) :
    Except InvalidateError (Option System) :=
  invalidateChildFileCacheIfExist cfg fileCacheHandler oldParent oldName

/-- A turn of the loop of `renameNonHierarchicalDir`, once the descendant
is moved: its object name. -/
def renameDirInvalidate (fileCacheHandler : Option System) (oldDir : DirInode) (o : Gcs.MinObject) :
    Except InvalidateError (Option System) :=
  invalidateChildFileCacheIfExist cfg fileCacheHandler oldDir o.name

/-- The entry the file-info cache holds for an object name. -/
def cachedEntry (sys : System) (objectName : String) : Option Data.FileInfo :=
  (fileInfoKeyName cfg objectName).bind (Lru.lookUpWithoutChangingOrder sys.cache.fileInfoCache)

end Calls

/-- A file cache holding the entries of `d/x` and of `x`. -/
def twoEntries : List Handler.Action := [.getCacheHandle ⟨"d/x", 1, 4⟩, .getCacheHandle ⟨"x", 1, 4⟩]

/-- **A rename erases the wrong entry.** Renaming the file `x` of the
directory `d/` atomically invalidates the name `x`: the entry of the
renamed object `d/x` stays, and the entry of the object `x` at the
bucket's root, which the rename did not touch, is erased. -/
theorem rename_invalidates_wrong_entry :
    ∃ sys sys', Run.run (Handler.step raceConfig Handler.fourByteGenerations) (System.init 2097152)
        twoEntries = some sys ∧
      (Name.newRootName "bucket").newFileName "d/" = some ⟨"bucket", "d/"⟩ ∧
      atomicRenameInvalidate raceConfig (some sys) ⟨⟨"bucket", "d/"⟩, some "bucket"⟩ "x" = .ok (some sys') ∧
      (cachedEntry raceConfig sys "d/x").isSome ∧ (cachedEntry raceConfig sys "x").isSome ∧
      (cachedEntry raceConfig sys' "d/x").isSome ∧ cachedEntry raceConfig sys' "x" = none :=
  ⟨_, _, rfl, rfl, rfl, by decide, by decide, by decide, by decide⟩

end Fs

end GcsFuse
