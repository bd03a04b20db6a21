import GcsFuse.Inode.File
/-!
# The temp file keeps track of its source, and the syncer writes it

`gcsx.TempFile` promises two things about itself: no byte below
`DirtyThreshold` differs from the object it was loaded from, and while it
has no mtime it is that object. `Tracks` states both, with the bound
`DirtyThreshold ≤ Size` the code checks. Each of `WriteAt`, `Truncate` and
`SetMtime` keeps it (`Tracks.apply`), so every sequence of them does
(`tracks_run`).

`SyncObject` relies on it. Its compose path uploads only the bytes past the
source's end and composes them after the source, which gives the temp file's
contents back when nothing below the source's size is dirty
(`Tracks.compose_contents`); its two sanity checks cannot fail; so it writes
no object exactly when the temp file is the source, and otherwise a new
generation holding the temp file (`syncObject_of_tracks`).
-/

namespace GcsFuse

namespace Inode

open Gcs

/-- The calls that change a temp file. -/
inductive TempFileOp
  | writeAt (data : List UInt8) (offset : ℕ)
  | truncate (n : ℕ)
  | setMtime
  deriving DecidableEq, Repr

namespace TempFile

/-- One call on a temp file. -/
def apply (t : TempFile) : TempFileOp → TempFile
  | .writeAt data offset => t.writeAt data offset
  | .truncate n => t.truncate n
  | .setMtime => t.setMtime

/-- A temp file loaded from `source`, after a sequence of calls. -/
def run (source : List UInt8) (ops : List TempFileOp) : TempFile :=
  ops.foldl apply (new source)

/-- **What a temp file loaded from `source` promises**: `DirtyThreshold`
is at most its size and the source's, no byte below it was changed, and
without an mtime the file is the source as loaded. -/
structure Tracks (source : List UInt8) (t : TempFile) : Prop where
  threshold_le_size : t.dirtyThreshold ≤ t.size
  threshold_le_source : t.dirtyThreshold ≤ source.length
  clean : t.contents.take t.dirtyThreshold = source.take t.dirtyThreshold
  undirtied : t.dirtied = false → t = new source

/-- Two lists that agree below `n` agree below any `k ≤ n`. -/
theorem take_eq_take_of_le {a b : List UInt8} {n k : ℕ} (h : a.take n = b.take n) (hk : k ≤ n) :
    a.take k = b.take k := by
  rw [← Nat.min_eq_left hk, ← List.take_take, h, List.take_take]

variable {source : List UInt8} {t : TempFile}

theorem tracks_new (source : List UInt8) : Tracks source (new source) where
  threshold_le_size := le_refl _
  threshold_le_source := le_refl _
  clean := rfl
  undirtied _ := rfl

theorem Tracks.writeAt (h : Tracks source t) (data : List UInt8) (offset : ℕ) :
    Tracks source (t.writeAt data offset) where
  threshold_le_size := calc
    min t.dirtyThreshold offset ≤ t.contents.length := le_trans (min_le_left _ _) h.threshold_le_size
    _ ≤ (ByteFile.pwrite t.contents offset data).length := ByteFile.length_le_length_pwrite _ _ _
  threshold_le_source := le_trans (min_le_left _ _) h.threshold_le_source
  clean := by
    -- the write starts at or above the new threshold, below which the old
    -- file already agreed with the source
    have hk : min t.dirtyThreshold offset ≤ t.contents.length :=
      le_trans (min_le_left _ _) h.threshold_le_size
    rw [TempFile.writeAt, ByteFile.take_pwrite _ data (min_le_right _ _) hk]
    exact take_eq_take_of_le h.clean (min_le_left _ _)
  undirtied hd := by cases hd

theorem Tracks.truncate (h : Tracks source t) (n : ℕ) : Tracks source (t.truncate n) where
  threshold_le_size := by
    simp only [TempFile.truncate, size, ByteFile.length_ftruncate]
    exact min_le_right _ _
  threshold_le_source := le_trans (min_le_left _ _) h.threshold_le_source
  clean := by
    have hk : min t.dirtyThreshold n ≤ t.contents.length :=
      le_trans (min_le_left _ _) h.threshold_le_size
    rw [TempFile.truncate, ByteFile.take_ftruncate _ (min_le_right _ _) hk]
    exact take_eq_take_of_le h.clean (min_le_left _ _)
  undirtied hd := by cases hd

theorem Tracks.setMtime (h : Tracks source t) : Tracks source t.setMtime where
  threshold_le_size := h.threshold_le_size
  threshold_le_source := h.threshold_le_source
  clean := h.clean
  undirtied hd := by cases hd

theorem Tracks.apply (h : Tracks source t) : ∀ op, Tracks source (t.apply op)
  | .writeAt data offset => h.writeAt data offset
  | .truncate n => h.truncate n
  | .setMtime => h.setMtime

/-- **Every sequence of calls keeps the promise**: induction on the calls,
from any temp file that keeps it. -/
theorem Tracks.foldl : ∀ (ops : List TempFileOp) {t : TempFile}, Tracks source t →
    Tracks source (ops.foldl TempFile.apply t)
  | [], _, h => h
  | op :: ops, _, h => Tracks.foldl ops (h.apply op)

theorem tracks_run (source : List UInt8) (ops : List TempFileOp) : Tracks source (run source ops) :=
  Tracks.foldl ops (tracks_new source)

/-- The invariants `CheckInvariants` panics on. -/
theorem Tracks.checkInvariants (h : Tracks source t) :
    t.dirtyThreshold ≤ t.size ∧ (t.dirtied = false → t.dirtyThreshold = t.size) := by
  refine ⟨h.threshold_le_size, fun hd => ?_⟩
  rw [h.undirtied hd]
  rfl

/-- Of the size of the source, with no byte below it dirty, the file is the
source. -/
theorem Tracks.eq_source (h : Tracks source t) (hsize : t.size = source.length)
    (hdt : t.dirtyThreshold = source.length) : t.contents = source := by
  have hclean := h.clean
  rw [hdt, List.take_length] at hclean
  rw [← hclean, List.take_of_length_le (le_of_eq hsize)]

/-- **The compose path writes the temp file**: with nothing below the
source's size dirty, the source followed by the bytes past its end is the
file. -/
theorem Tracks.compose_contents (h : Tracks source t) (hdt : t.dirtyThreshold = source.length) :
    source ++ t.contents.drop source.length = t.contents := by
  have hclean := h.clean
  rw [hdt, List.take_length] at hclean
  calc source ++ t.contents.drop source.length
      = t.contents.take source.length ++ t.contents.drop source.length := by rw [hclean]
    _ = t.contents := List.take_append_drop _ _

/-- Without an mtime nothing was changed, so `SyncObject` has nothing to
write. -/
theorem Tracks.same_of_undirtied (h : Tracks source t) (hd : t.dirtied = false) :
    t.size = source.length ∧ t.dirtyThreshold = source.length := by
  rw [h.undirtied hd]
  exact ⟨rfl, rfl⟩

end TempFile

open TempFile

/-- The components of the object `SyncObject` writes: one more than the
source's where it composes, else one. -/
def Syncer.componentCountOf (sy : Syncer) (o : Object) (t : TempFile) : ℕ :=
  if sy.composes o t then o.componentCount + 1 else 1

/-- **`SyncObject` of a temp file that keeps its promise**, on a bucket that
still holds the source: no object where the file is the source's size with
nothing dirty, else a new generation holding the file, on either path. -/
theorem Syncer.syncObject_of_tracks (sy : Syncer) {b : Bucket} {name : ObjectName} {o : Object}
    {t : TempFile} (h : Tracks o.contents t) (hlive : b.get name = some o) :
    sy.syncObject b name (some o) t =
      if t.size = o.contents.length ∧ t.dirtyThreshold = o.contents.length then .ok (none, b)
      else .ok ((b.put name t.contents (sy.componentCountOf o t)).get name,
        b.put name t.contents (sy.componentCountOf o t)) := by
  unfold Syncer.syncObject Syncer.componentCountOf
  dsimp only
  rw [if_neg (not_lt.2 h.threshold_le_source)]
  split_ifs with hsame hundirtied hcompose
  · rfl
  · -- the check "wacky stat result" is unreachable
    rw [Bool.not_eq_true'] at hundirtied
    exact absurd (h.same_of_undirtied hundirtied) hsame
  · rw [b.target_self hlive, h.compose_contents hcompose.2.2.1]
  · rw [b.target_self hlive]

/-- **`SyncObject` after any sequence of `WriteAt`, `Truncate` and
`SetMtime`** on a temp file loaded from the source, the bucket still holding
the source: the file keeps the invariants `CheckInvariants` checks; the
compose path's bytes are the file's wherever it is taken; and the call
returns no object exactly when the file is the source's size with nothing
dirty, the file then being the source, and otherwise writes a new
generation holding the file. -/
theorem sync_object_writes_temp_file (sy : Syncer) (b : Bucket) (name : ObjectName) (o : Object)
    (ops : List TempFileOp) (hlive : b.get name = some o) :
    let t := TempFile.run o.contents ops
    (t.dirtyThreshold ≤ t.size ∧ (t.dirtied = false → t.dirtyThreshold = t.size)) ∧
      (t.dirtyThreshold = o.contents.length → o.contents ++ t.contents.drop o.contents.length = t.contents) ∧
      ((t.size = o.contents.length ∧ t.dirtyThreshold = o.contents.length) ∧ t.contents = o.contents ∧
          sy.syncObject b name (some o) t = .ok (none, b) ∨
        ¬ (t.size = o.contents.length ∧ t.dirtyThreshold = o.contents.length) ∧
          sy.syncObject b name (some o) t =
            .ok (some ⟨b.nextGeneration, 1, t.contents, sy.componentCountOf o t⟩,
              b.put name t.contents (sy.componentCountOf o t))) := by
  intro t
  have h : Tracks o.contents t := tracks_run o.contents ops
  refine ⟨h.checkInvariants, h.compose_contents, ?_⟩
  rw [sy.syncObject_of_tracks h hlive]
  by_cases hsame : t.size = o.contents.length ∧ t.dirtyThreshold = o.contents.length
  · exact .inl ⟨hsame, h.eq_source hsame.1 hsame.2, if_pos hsame⟩
  · refine .inr ⟨hsame, ?_⟩
    rw [if_neg hsame, Bucket.get_put]

/-- A bucket holding "f" = `[1, 2, 3]`, of generation `1`. -/
def oneObject : Bucket := (⟨∅, 1⟩ : Bucket).write [102] [1, 2, 3]

/-- A byte appended to "f": the compose path writes generation `2` of the
four bytes. -/
theorem sync_object_writes_appended_byte :
    Syncer.syncObject ⟨0, true⟩ oneObject [102] (some ⟨1, 1, [1, 2, 3], 1⟩)
        (TempFile.run [1, 2, 3] [.writeAt [4] 3]) =
      .ok (some ⟨2, 1, [1, 2, 3, 4], 2⟩, oneObject.put [102] [1, 2, 3, 4] 2) := by
  rcases (sync_object_writes_temp_file ⟨0, true⟩ oneObject [102] ⟨1, 1, [1, 2, 3], 1⟩ [.writeAt [4] 3]
    rfl).2.2 with ⟨hsame, -, -⟩ | ⟨-, h⟩
  · exact absurd hsame (by decide)
  · exact h

-- A write of no bytes past the end leaves the file the source, so there is
-- nothing to write, as `os.File.WriteAt` makes no call for it.
example : Syncer.syncObject ⟨0, true⟩ oneObject [102] (some ⟨1, 1, [1, 2, 3], 1⟩)
    (TempFile.run [1, 2, 3] [.writeAt [] 10]) = .ok (none, oneObject) := rfl

end Inode

end GcsFuse
