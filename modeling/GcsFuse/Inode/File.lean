import GcsFuse.BufferedWrite.Handler
import GcsFuse.Gcs.Bucket
import GcsFuse.Common.ByteFile
import GcsFuse.Common.Run
/-!
# A file inode's contents: the temp file and the buffered write handler

`internal/fs/inode/file.go`: a `FileInode` holds its contents in one of
two places. With streaming writes it holds a buffered write handler
(`Fs.BufferedWrite.Handler`), which accepts only writes at the end and
streams them to a new object; any other write or a shrinking truncation
makes the inode finalize what it streamed and continue on a temp file, a
local copy of the object (`gcsx.TempFile`) written with `pwrite` and
`ftruncate` semantics and uploaded by the syncer on `Sync` and `Flush`.
`Attributes().Size` is the handler's `WriteFileInfo().TotalSize`, else the
temp file's size, else the object's.

A call on the handler runs its action and then the steps of the handler
and of its uploader until the call returns; which steps those are is an
argument, so every statement holds whatever the schedule. The bucket is
written by this inode only.

The inode's contents are compared with the file of bytes under `pwrite`
and `ftruncate` (`ByteFile`) the same calls define. Through a temp file
the inode is that file; through the handler its size goes through
`float64`, and above `2 ^ 53` it is not
(`truncate_past_float_precision_misreports_size`).
-/

namespace GcsFuse

namespace Inode

open BufferedWrite Gcs
open BufferedWriteHandler (Action)

/-- `gcsx.TempFile` once loaded: its bytes, `DirtyThreshold` (no byte
below it differs from the source object's), and whether it carries an
mtime, which every write and truncation sets. -/
structure TempFile where
  contents : List UInt8
  dirtyThreshold : ℕ
  dirtied : Bool
  deriving DecidableEq, Repr

namespace TempFile

variable (t : TempFile)

/-- `NewTempFile`, once `ensureComplete` has copied the source in. -/
def new (source : List UInt8) : TempFile := ⟨source, source.length, false⟩

/-- `WriteAt`. -/
def writeAt (data : List UInt8) (offset : ℕ) : TempFile :=
  ⟨ByteFile.pwrite t.contents offset data, min t.dirtyThreshold offset, true⟩

/-- `Truncate`. -/
def truncate (n : ℕ) : TempFile := ⟨ByteFile.ftruncate t.contents n, min t.dirtyThreshold n, true⟩

/-- `SetMtime`. -/
def setMtime : TempFile := { t with dirtied := true }

/-- `Stat().Size`. -/
def size : ℕ := t.contents.length

end TempFile

/-- What a call on a file inode returns in error. -/
inductive FileError
  /-- An error of a bucket call, passed on. -/
  | gcs (e : GcsError)
  /-- `FileClobberedError`: the object is no longer the generation the
  inode stands for. -/
  | clobbered
  /-- An error of the buffered write handler, passed on. -/
  | write (e : WriteError)
  /-- `SyncObject`'s "weird DirtyThreshold field" and "wacky stat result". -/
  | weird
  /-- "could not upload entire data, expected size %d, got %d". -/
  | incomplete
  deriving DecidableEq, Repr

/-- The syncer: its `composeThreshold`, and whether it has a compose
creator (none on a zonal bucket). -/
structure Syncer where
  composeThreshold : ℕ
  compose : Bool

/-- The test of `SyncObject` for the compose path: a compose creator, a
source of at least `composeThreshold` bytes none of which is dirty, and
fewer than `MaxComponentCount` components in it. -/
def Syncer.composes (sy : Syncer) (o : Object) (t : TempFile) : Prop :=
  sy.compose ∧ sy.composeThreshold ≤ o.contents.length ∧ t.dirtyThreshold = o.contents.length ∧
    o.componentCount < maxComponentCount

instance (sy : Syncer) (o : Object) (t : TempFile) : Decidable (sy.composes o t) := by
  unfold Syncer.composes
  infer_instance

/-- `SyncObject`: nothing for contents that are not dirty; otherwise a new
generation holding them, made by composing the source object with the
bytes past its end where `composes` holds, which adds one component to
the source's, else by a full upload. A local file's object is created
with the precondition that the name is not live, any other with the
source's generation and metageneration. -/
def Syncer.syncObject (sy : Syncer) (b : Bucket) (name : ObjectName) (src : Option Object) (t : TempFile) :
    Except FileError (Option Object × Bucket) :=
  match src with
  | none => (b.createObject name t.contents true).map (fun b' => (b'.get name, b')) |>.mapError .gcs
  | some o =>
    let srcSize := o.contents.length
    if srcSize < t.dirtyThreshold then .error .weird
    else if t.size = srcSize ∧ t.dirtyThreshold = srcSize then .ok (none, b)
    else if !t.dirtied then .error .weird
    else
      let contents := if sy.composes o t then o.contents ++ t.contents.drop srcSize else t.contents
      let componentCount := if sy.composes o t then o.componentCount + 1 else 1
      match b.target name o.generation (some o.metaGeneration) with
      | .error e => .error (.gcs e)
      | .ok _ =>
        let b' := b.put name contents componentCount
        .ok (b'.get name, b')

/-- What `FileInode` keeps of its contents: the object it stands for
(`src`; a local file's is empty, of generation `0`), whether it is local,
the temp file, and the buffered write handler with the configuration it
was made with. -/
structure FileInode where
  name : ObjectName
  src : Object
  isLocal : Bool
  content : Option TempFile
  bwh : Option BufferedWriteHandler
  bwhConfig : Config

/-- What a call does: its result, the inode and the bucket after it;
`none` where the schedule given does not end the call. -/
abbrev Outcome := Option (Except FileError Unit × FileInode × Bucket)

/-- The steps of the handler and its uploader a call on an inode runs:
for the call itself, and for the `Flush` of a fallback, with whether the
writers they create are created. -/
structure Schedule where
  steps : List Action
  writerOk : Bool
  flushSteps : List Action

namespace FileInode

variable (f : FileInode) (b : Bucket)

/-- `Attributes().Size`: the handler's `WriteFileInfo().TotalSize`, else
the temp file's size, else the object's. -/
def attributesSize : ℕ :=
  match f.bwh with
  | some h => h.writeFileInfoTotalSize.toNat
  | none =>
    match f.content with
    | some t => t.size
    | none => f.src.contents.length

/-- A call on the handler: its action, then `steps`; the reply the call
appends is its result. -/
def handlerCall (h : BufferedWriteHandler) (a : Action) (steps : List Action) :
    Option (Reply × BufferedWriteHandler) := do
  let h' ← Run.run (BufferedWriteHandler.step f.bwhConfig) h (a :: steps)
  if h'.caller = .idle ∧ h'.replies.length = h.replies.length + 1 then
    h'.replies.getLast?.map (·, h')
  else none

/-- `ensureContent`: a temp file holding the object's generation the
inode stands for, unless there is one. -/
def ensureContent : Except FileError FileInode :=
  match f.content with
  | some _ => .ok f
  | none =>
    match b.select f.name f.src.generation with
    | some o => .ok { f with content := some (TempFile.new o.contents) }
    | none => .error (.gcs .notFound)

/-- `updateInodeStateAfterSync`: the inode stands for the object the
call wrote, and its temp file is dropped. -/
def updateInodeStateAfterSync : Option Object → FileInode
  | some o => { f with src := o, isLocal := false, content := none }
  | none => f

/-- `updateInodeStateAfterFlush`: the same, and the handler is dropped. -/
def updateInodeStateAfterFlush : Option Object → FileInode
  | some o => { f.updateInodeStateAfterSync (some o) with bwh := none }
  | none => f

/-- `writeUsingTempFile`. -/
def writeUsingTempFile (data : List UInt8) (offset : ℕ) : Except FileError FileInode := do
  let f ← f.ensureContent b
  match f.content with
  | some t => .ok { f with content := some (t.writeAt data offset) }
  | none => .ok f

/-- `truncateUsingTempFile`. -/
def truncateUsingTempFile (size : ℕ) : Except FileError FileInode := do
  let f ← f.ensureContent b
  match f.content with
  | some t => .ok { f with content := some (t.truncate size) }
  | none => .ok f

/-- `syncUsingContent`: the object a file that is not local stands for
is checked first (`fetchLatestGcsObject`), then the temp file synced,
and the new object's size checked against it. -/
def syncUsingContent (sy : Syncer) (t : TempFile) : Except FileError (FileInode × Bucket) := do
  let latest ← if f.isLocal then pure none
    else match b.target f.name f.src.generation (some f.src.metaGeneration) with
      | .ok o => pure (some o)
      | .error _ => throw .clobbered
  let (newObj, b') ← sy.syncObject b f.name latest t
  if newObj.any fun o => o.contents.length ≠ t.size then throw .incomplete
  pure (f.updateInodeStateAfterFlush newObj, b')

/-- The object the handler's writer leaves once finalized: the bytes it
appended after the first `offset` of the object it appends to. -/
def finalized (w : GcsWriter) : Bucket :=
  b.write f.name ((((b.get f.name).map Object.contents).getD []).take w.offset ++ w.data)

/-- `flushUsingBufferedWriteHandler`: the handler's `Flush`; once it
succeeds the inode stands for the finalized object. -/
def flushUsingBufferedWriteHandler (h : BufferedWriteHandler) (writerOk : Bool) (steps : List Action) :
    Outcome := do
  let (r, h') ← f.handlerCall h (.flush writerOk) steps
  let f := { f with bwh := some h' }
  match r with
  | .flush (.ok _) =>
    let w ← h'.writer
    let b' := f.finalized b w
    some (.ok (), f.updateInodeStateAfterFlush (b'.get f.name), b')
  | .flush (.error e) => some (.error (.write e), f, b)
  | _ => none

/-- `writeUsingBufferedWrites`: the handler's `Write`; a write out of
order finalizes the object and goes to a temp file. -/
def writeUsingBufferedWrites (h : BufferedWriteHandler) (data : List UInt8) (offset : ℕ) (s : Schedule) :
    Outcome := do
  let (r, h') ← f.handlerCall h (.write offset data) s.steps
  let f := { f with bwh := some h' }
  match r with
  | .write none => some (.ok (), f, b)
  | .write (some .outOfOrder) =>
    match ← f.flushUsingBufferedWriteHandler b h' s.writerOk s.flushSteps with
    | (.ok (), f, b) =>
      match f.writeUsingTempFile b data offset with
      | .ok f => some (.ok (), f, b)
      | .error e => some (.error e, f, b)
    | r => some r
  | .write (some e) => some (.error (.write e), f, b)
  | _ => none

/-- `truncateUsingBufferedWriteHandler`: the handler's `Truncate`; a
shrinking one finalizes the object and goes to a temp file. -/
def truncateUsingBufferedWriteHandler (h : BufferedWriteHandler) (size : ℕ) (s : Schedule) : Outcome := do
  let (r, h') ← f.handlerCall h (.truncate size) s.steps
  let f := { f with bwh := some h' }
  match r with
  | .truncate none => some (.ok (), f, b)
  | .truncate (some .outOfOrder) =>
    match ← f.flushUsingBufferedWriteHandler b h' s.writerOk s.flushSteps with
    | (.ok (), f, b) =>
      match f.truncateUsingTempFile b size with
      | .ok f => some (.ok (), f, b)
      | .error e => some (.error e, f, b)
    | r => some r
  | .truncate (some e) => some (.error (.write e), f, b)
  | _ => none

/-- `Write`. -/
def write (data : List UInt8) (offset : ℕ) (s : Schedule) : Outcome :=
  match f.bwh with
  | some h => f.writeUsingBufferedWrites b h data offset s
  | none =>
    match f.writeUsingTempFile b data offset with
    | .ok f => some (.ok (), f, b)
    | .error e => some (.error e, f, b)

/-- `Truncate`. -/
def truncate (size : ℕ) (s : Schedule) : Outcome :=
  match f.bwh with
  | some h => f.truncateUsingBufferedWriteHandler b h size s
  | none =>
    match f.truncateUsingTempFile b size with
    | .ok f => some (.ok (), f, b)
    | .error e => some (.error e, f, b)

/-- `Sync`: through the handler, its `Sync`, which on a zonal bucket
leaves the object holding what was streamed; else the temp file synced. -/
def sync (sy : Syncer) (s : Schedule) : Outcome :=
  match f.bwh, f.content with
  | some h, _ => do
    let (r, h') ← f.handlerCall h (.sync s.writerOk) s.steps
    let f := { f with bwh := some h' }
    match r with
    | .sync (.ok none) => some (.ok (), f, b)
    | .sync (.ok (some _)) =>
      let w ← h'.writer
      let b' := f.finalized b w
      some (.ok (), f.updateInodeStateAfterSync (b'.get f.name), b')
    | .sync (.error e) => some (.error (.write e), f, b)
    | _ => none
  | none, some t =>
    match f.syncUsingContent b sy t with
    | .ok (f, b) => some (.ok (), f, b)
    | .error e => some (.error e, f, b)
  | none, none => some (.ok (), f, b)

/-- `Flush`. -/
def flush (sy : Syncer) (s : Schedule) : Outcome :=
  match f.bwh, f.content with
  | some h, _ => f.flushUsingBufferedWriteHandler b h s.writerOk s.steps
  | none, some t =>
    match f.syncUsingContent b sy t with
    | .ok (f, b) => some (.ok (), f, b)
    | .error e => some (.error e, f, b)
  | none, none => some (.ok (), f, b)

end FileInode

/-- A handler's configuration: blocks of one byte, one block, a bucket
that is not zonal, no object yet. -/
def streamingConfig : Config := ⟨1, 1, false, none⟩

/-- The local file "f" as `CreateFile` leaves it with streaming writes:
no object behind it, and a handler. -/
def streamingLocalFile : Option FileInode :=
  (BufferedWrite.new streamingConfig 1).map fun h =>
    ⟨[102], ⟨0, 0, [], 0⟩, true, none, some h, streamingConfig⟩

/-- **Above `2 ^ 53` the size goes wrong.** `Truncate(2 ^ 53 + 1)` of a
new streamed file succeeds (the handler records the size), and
`Attributes().Size` is then `2 ^ 53`, where the file it stands for has
`2 ^ 53 + 1` bytes: `WriteFileInfo` passes the size through `float64`,
which rounds `2 ^ 53 + 1` to the even `2 ^ 53`. -/
theorem truncate_past_float_precision_misreports_size :
    ∃ f f' b', streamingLocalFile = some f ∧
      f.truncate ⟨∅, 1⟩ (2 ^ 53 + 1) ⟨[], true, []⟩ = some (.ok (), f', b') ∧
      f'.attributesSize = 2 ^ 53 ∧ (ByteFile.ftruncate ([] : List UInt8) (2 ^ 53 + 1)).length = 2 ^ 53 + 1 := by
  refine ⟨_, _, _, rfl, rfl, ?_, ByteFile.length_ftruncate _ _⟩
  show (max (FloatRound.roundInt 53 0) (FloatRound.roundInt 53 (2 ^ 53 + 1))).toNat = 2 ^ 53
  rw [FloatRound.roundInt_of_lt (by decide), FloatRound.roundInt_two_pow_add_one (by decide)]
  rfl

end Inode

end GcsFuse
