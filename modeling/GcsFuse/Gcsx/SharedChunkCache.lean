import GcsFuse.Common.Chunks
/-!
# The shared chunk cache reader

`internal/gcsx/shared_chunk_cache_reader.go`, with the paths of
`internal/cache/file/shared_chunk_cache_manager.go`. The cache directory
is shared by every mount: a generation of an object is cut into chunks of
`chunkSize` bytes, and chunk `k` is the file of its index in the object's
directory. `ReadAt` walks the request across chunks: for each it opens
the chunk's file, or downloads the chunk when the file is not there, and
copies the part of the request that lies in the chunk.

A download writes the chunk to a temporary file and renames it into place
only once it holds as many bytes as the chunk has (`downloadChunk_eq`).
So when every chunk file holds its chunk's bytes (`Valid`), it
still does after a read, and a read that does not fall back returns the
object's bytes from the offset, as many as the buffer and the object
allow. The other processes' calls on the directory, and whatever can fail,
are each round's answers.
-/

namespace GcsFuse

namespace Gcsx

/-- The chunk files of one generation of an object, by chunk index. -/
abbrev ChunkDir := ℕ → Option (List UInt8)

/-- What creating the temporary file meets. -/
inductive CreateAnswer
  | ok
  /-- `ENOENT`: another process's eviction took the directory. -/
  | enoent
  | failed
  deriving DecidableEq, Repr

/-- What the calls of `downloadChunk` meet where the code tests for
failure: `MkdirAll`, `OpenFile` of the temporary file and, after
`ENOENT`, `MkdirAll` and `OpenFile` again; `NewReaderWithReadHandle`;
how many of the range's bytes the reader delivered and whether `io.Copy`
failed; `Close`; `Rename`. -/
structure DownloadAnswers where
  mkdirOk : Bool
  create : CreateAnswer
  retryMkdirOk : Bool
  retryCreateOk : Bool
  readerOk : Bool
  delivered : ℕ
  copyFails : Bool
  closeOk : Bool
  renameOk : Bool
  deriving DecidableEq, Repr

/-- What one round of the loop of `ReadAt` meets outside the directory:
whether `os.Open` fails with an error other than `ENOENT`, the answers of
a download, whether the `os.Open` after it fails (another eviction, or
any error), and whether `ReadAt` of the file fails with an error other
than `io.EOF`. -/
structure RoundAnswers where
  openFails : Bool
  download : DownloadAnswers
  reopenFails : Bool
  readFails : Bool
  deriving DecidableEq, Repr

/-- The errors of `ReadAt`. -/
inductive ChunkReadError
  | fallbackToAnotherReader
  | eof
  | negativeOffset
  deriving DecidableEq, Repr

namespace SharedChunkCacheReader

variable (object : List UInt8) (chunkSize : ℕ)

/-- The object's bytes `[start, stop)`: what the bucket's reader of that
range of the generation delivers. -/
def objectRange (start stop : ℕ) : List UInt8 := (object.drop start).take (stop - start)

/-- The bytes of chunk `k`, cut at the object's end. -/
def chunkBytes (k : ℕ) : List UInt8 :=
  objectRange object (k * chunkSize) (min (k * chunkSize + chunkSize) object.length)

/-- `downloadChunk`: the directory afterwards, and whether it succeeded.
The temporary file holds what `io.Copy` wrote; it is renamed into place
only when that is the whole range, and removed otherwise. -/
def downloadChunk (dir : ChunkDir) (chunkIndex chunkStart chunkEnd : ℕ) (a : DownloadAnswers) :
    ChunkDir × Bool :=
  let created := match a.create with
    | .ok => true
    | .enoent => a.retryMkdirOk && a.retryCreateOk
    | .failed => false
  let written := (objectRange object chunkStart chunkEnd).take a.delivered
  if !a.mkdirOk || !created || !a.readerOk then (dir, false)
  else if a.copyFails ∨ written.length ≠ chunkEnd - chunkStart then (dir, false)
  else if !a.closeOk || !a.renameOk then (dir, false)
  else (Function.update dir chunkIndex (some written), true)

/-- The chunk's file for a round: the directory's, or the one a download
put there, opened again; `none` where the round falls back. -/
def openChunk (dir : ChunkDir) (a : RoundAnswers) (chunkIndex chunkStart chunkEnd : ℕ) :
    ChunkDir × Option (List UInt8) :=
  if a.openFails then (dir, none)
  else
    match dir chunkIndex with
    | some bytes => (dir, some bytes)
    | none =>
      let r := downloadChunk object dir chunkIndex chunkStart chunkEnd a.download
      if r.2 ∧ !a.reopenFails then (r.1, r.1 chunkIndex) else (r.1, none)

/-- The loop of `ReadAt` at round `round`, from `currentOffset`, with
`bufferRemaining` bytes of the buffer left and the bytes `read` so far;
`fuel` bounds the rounds. `GetChunkIndex` divides by the chunk size, and
panics at zero. -/
def readLoop (answers : ℕ → RoundAnswers) :
    ℕ → ℕ → ChunkDir → ℕ → ℕ → List UInt8 → Option (ChunkDir × Except ChunkReadError (List UInt8))
  | fuel, round, dir, currentOffset, bufferRemaining, read =>
    if 0 < bufferRemaining ∧ currentOffset < object.length then
      match fuel with
      | 0 => none
      | fuel + 1 =>
        if chunkSize = 0 then none
        else
          let chunkIndex := currentOffset / chunkSize
          let chunkStart := chunkIndex * chunkSize
          let chunkEnd := min (chunkStart + chunkSize) object.length
          let a := answers round
          match openChunk object dir a chunkIndex chunkStart chunkEnd with
          | (dir, none) => some (dir, .error .fallbackToAnotherReader)
          | (dir, some bytes) =>
            let bytesToRead := min bufferRemaining (chunkEnd - currentOffset)
            -- `ReadAt` of the file at the offset in the chunk
            let data := (bytes.drop (currentOffset - chunkStart)).take bytesToRead
            if a.readFails ∨ data.length < bytesToRead then some (dir, .error .fallbackToAnotherReader)
            else
              readLoop answers fuel (round + 1) dir (currentOffset + data.length)
                (bufferRemaining - data.length) (read ++ data)
    else if read.length = 0 ∧ object.length ≤ currentOffset then some (dir, .error .eof)
    else some (dir, .ok read)

/-- `ReadAt` of `len` bytes at `offset`: the directory afterwards, and the
bytes read (`Size` is their number) or the error. `excluded` is
`ShouldExcludeFromCache`. Each round reads at least a byte, so the
buffer's length bounds the rounds. -/
def readAt (excluded : Bool) (answers : ℕ → RoundAnswers) (dir : ChunkDir) (offset : ℤ) (len : ℕ) :
    Option (ChunkDir × Except ChunkReadError (List UInt8)) :=
  if excluded then some (dir, .error .fallbackToAnotherReader)
  else if (object.length : ℤ) ≤ offset then some (dir, .error .eof)
  else if offset < 0 then some (dir, .error .negativeOffset)
  else readLoop object chunkSize answers len 0 dir offset.toNat len []

/-! ## Downloads publish whole chunks -/

/-- **Every chunk file holds its chunk's bytes.** -/
def Valid (dir : ChunkDir) : Prop := ∀ k bytes, dir k = some bytes → bytes = chunkBytes object chunkSize k

theorem length_objectRange_le (start stop : ℕ) : (objectRange object start stop).length ≤ stop - start := by
  rw [objectRange, List.length_take]
  exact Nat.min_le_left _ _

/-- A chunk holds `Chunks.len` bytes of the object. -/
theorem length_chunkBytes (k : ℕ) : (chunkBytes object chunkSize k).length = Chunks.len chunkSize object.length k := by
  rw [chunkBytes, objectRange, List.length_take, List.length_drop, Chunks.len, Nat.succ_mul]
  omega

/-- **What `downloadChunk` does**: nothing, or it publishes the whole
range, which then has as many bytes as the range is long. -/
theorem downloadChunk_eq {dir dir' : ChunkDir} {chunkIndex chunkStart chunkEnd : ℕ} {a : DownloadAnswers}
    {ok : Bool} (h : downloadChunk object dir chunkIndex chunkStart chunkEnd a = (dir', ok)) :
    (ok = false ∧ dir' = dir) ∨
      (ok = true ∧ dir' = Function.update dir chunkIndex (some (objectRange object chunkStart chunkEnd)) ∧
        (objectRange object chunkStart chunkEnd).length = chunkEnd - chunkStart) := by
  unfold downloadChunk at h
  dsimp only at h
  -- whether the temporary file was created plays no part past the test
  generalize (match a.create with
    | .ok => true
    | .enoent => a.retryMkdirOk && a.retryCreateOk
    | .failed => false) = created at h
  split_ifs at h with hopen hcopy hclose <;> obtain ⟨rfl, rfl⟩ := Prod.mk.inj h
  · exact Or.inl ⟨rfl, rfl⟩
  · exact Or.inl ⟨rfl, rfl⟩
  · exact Or.inl ⟨rfl, rfl⟩
  · -- the copy wrote the whole range: the range is no longer than that
    have hlen : ((objectRange object chunkStart chunkEnd).take a.delivered).length = chunkEnd - chunkStart := by
      simp only [not_or, not_not] at hcopy
      exact hcopy.2
    have hle := length_objectRange_le object chunkStart chunkEnd
    rw [List.length_take] at hlen
    have hrange : (objectRange object chunkStart chunkEnd).length = chunkEnd - chunkStart := by omega
    rw [List.take_of_length_le (by omega)]
    exact Or.inr ⟨rfl, rfl, hrange⟩

theorem Valid.downloadChunk {dir : ChunkDir} (h : Valid object chunkSize dir) (k : ℕ) (a : DownloadAnswers) :
    Valid object chunkSize
      (SharedChunkCacheReader.downloadChunk object dir k (k * chunkSize)
        (min (k * chunkSize + chunkSize) object.length) a).1 := by
  rcases downloadChunk_eq object (Prod.mk.eta.symm) with ⟨-, hdir⟩ | ⟨-, hdir, -⟩ <;> rw [hdir]
  · exact h
  · intro k' bytes hk
    by_cases hkk : k' = k
    · subst hkk
      rw [Function.update_self, Option.some.injEq] at hk
      exact hk.symm
    · rw [Function.update_of_ne hkk] at hk
      exact h k' bytes hk

/-- The file a round reads holds its chunk's bytes, and every file stays
valid. -/
theorem Valid.openChunk {dir : ChunkDir} (h : Valid object chunkSize dir) (a : RoundAnswers) (k : ℕ) :
    let r := openChunk object dir a k (k * chunkSize) (min (k * chunkSize + chunkSize) object.length)
    Valid object chunkSize r.1 ∧ ∀ bytes, r.2 = some bytes → bytes = chunkBytes object chunkSize k := by
  unfold SharedChunkCacheReader.openChunk
  split_ifs with hfails
  · exact ⟨h, fun _ hb => by cases hb⟩
  · split
    · rename_i bytes hk
      exact ⟨h, fun b hb => Option.some.inj hb ▸ h k bytes hk⟩
    · -- a download keeps the directory valid, and the file opened after it is the directory's
      have hvalid := h.downloadChunk object chunkSize k a.download
      dsimp only
      split_ifs with hok
      · exact ⟨hvalid, fun b hb => hvalid k b hb⟩
      · exact ⟨hvalid, fun _ hb => by cases hb⟩

/-! ## The read loop -/

/-- The bytes a round copies from the file of chunk `x / chunkSize`, at
the offset in the chunk, are the object's from `x` on. -/
theorem chunkBytes_drop_take (hC : 0 < chunkSize) {x t : ℕ} (hx : x < object.length)
    (ht : t ≤ min (x / chunkSize * chunkSize + chunkSize) object.length - x) :
    ((chunkBytes object chunkSize (x / chunkSize)).drop (x - x / chunkSize * chunkSize)).take t =
        (object.drop x).take t ∧ ((object.drop x).take t).length = t := by
  have hstart := Nat.div_mul_le_self x chunkSize
  have hend := Nat.lt_div_mul_add (a := x) hC
  rw [chunkBytes, objectRange, List.drop_take, List.drop_drop, List.take_take, Nat.add_sub_cancel' hstart,
    Nat.min_eq_left (by omega), List.length_take, List.length_drop]
  exact ⟨rfl, by omega⟩

/-- The bytes read from `offset` up to `x`, then `t` more. -/
theorem take_append_take {offset x : ℕ} (hx : offset ≤ x) (t : ℕ) :
    (object.drop offset).take (x - offset) ++ (object.drop x).take t = (object.drop offset).take (x + t - offset) := by
  rw [show x + t - offset = x - offset + t by omega, List.take_add, List.drop_drop, Nat.add_sub_cancel' hx]

/-- **The loop reads the object from the offset**: from a valid
directory, at `x` with `buf` bytes of the buffer left and the object's
bytes from `offset` to `x` read, the loop ends, with a valid directory,
in a fallback or with the object's bytes from `offset`, as many as the
buffer and the object allow. A round reads at least a byte, so `buf` is
enough fuel. -/
theorem readLoop_spec (hC : 0 < chunkSize) (answers : ℕ → RoundAnswers) (len : ℕ) {offset : ℕ}
    (hoff : offset < object.length) :
    ∀ (fuel round : ℕ) (dir : ChunkDir) (x buf : ℕ), Valid object chunkSize dir → offset ≤ x →
      x ≤ object.length → x - offset + buf = len → buf ≤ fuel →
      ∃ dir' r, readLoop object chunkSize answers fuel round dir x buf ((object.drop offset).take (x - offset)) =
          some (dir', r) ∧ Valid object chunkSize dir' ∧
        (r = .error .fallbackToAnotherReader ∨ r = .ok ((object.drop offset).take len))
  | fuel, round, dir, x, buf, hdir, hlo, hhi, hlen, hfuel => by
    by_cases hgo : 0 < buf ∧ x < object.length
    · obtain ⟨fuel, rfl⟩ : ∃ f, fuel = f + 1 := ⟨fuel - 1, by omega⟩
      have hend := Nat.lt_div_mul_add (a := x) hC
      have hvalid := hdir.openChunk object chunkSize (answers round) (x / chunkSize)
      rw [readLoop, if_pos hgo]
      dsimp only
      rw [if_neg (Nat.pos_iff_ne_zero.1 hC)]
      rcases hopen : openChunk object dir (answers round) (x / chunkSize) (x / chunkSize * chunkSize)
        (min (x / chunkSize * chunkSize + chunkSize) object.length) with ⟨dir₁, _ | bytes⟩
      · rw [hopen] at hvalid
        exact ⟨dir₁, _, rfl, hvalid.1, .inl rfl⟩
      · rw [hopen] at hvalid
        obtain rfl := hvalid.2 bytes rfl
        obtain ⟨hdata, hdlen⟩ := chunkBytes_drop_take object chunkSize hC hgo.2
          (Nat.min_le_right buf (min (x / chunkSize * chunkSize + chunkSize) object.length - x))
        dsimp only
        rw [hdata, hdlen]
        split_ifs with hfails
        · exact ⟨dir₁, _, rfl, hvalid.1, .inl rfl⟩
        · -- the round read the object's next bytes; the loop goes on after them
          rw [take_append_take object hlo]
          exact readLoop_spec hC answers len hoff fuel (round + 1) dir₁ _ _ hvalid.1 (by omega) (by omega)
            (by omega) (by omega)
    · have hread : ((object.drop offset).take (x - offset)).length = x - offset := by
        rw [List.length_take, List.length_drop]
        omega
      unfold readLoop
      rw [if_neg hgo, hread, if_neg (by omega)]
      refine ⟨dir, _, rfl, hdir, .inr ?_⟩
      -- the buffer is full, or the object read to its end
      by_cases hbuf : buf = 0
      · rw [show x - offset = len by omega]
      · rw [List.take_of_length_le (by rw [List.length_drop]; omega),
          List.take_of_length_le (by rw [List.length_drop]; omega)]

/-- The object's bytes from `offset`, as many as `len` and the object
allow. -/
theorem drop_take_eq_objectRange (offset len : ℕ) :
    ((object.drop offset).take len).length = min len (object.length - offset) ∧
      (object.drop offset).take len = objectRange object offset (offset + ((object.drop offset).take len).length) := by
  rw [objectRange, Nat.add_sub_cancel_left, List.length_take, List.length_drop]
  refine ⟨rfl, ?_⟩
  by_cases hle : len ≤ object.length - offset
  · rw [Nat.min_eq_left hle]
  · rw [Nat.min_eq_right (by omega), List.take_of_length_le (by rw [List.length_drop]; omega),
      ← List.length_drop, List.take_length]

/-- **A read of the shared chunk cache returns the object's bytes**, for
any object, chunk size of at least one, offset inside the object, buffer
length, and answers of the file system and the bucket, from a directory
whose every chunk file holds its chunk's bytes: `ReadAt` falls back to
another reader, or returns `min(len, size - offset)` bytes, the object's
from the offset; and every chunk file there is afterwards, among them
those it published, holds exactly its chunk's `min((k+1)C, S) - kC`
bytes. -/
theorem read_at_returns_object_bytes (object : List UInt8) (chunkSize : ℕ) (hC : 0 < chunkSize)
    (excluded : Bool) (answers : ℕ → RoundAnswers) (dir : ChunkDir) (hdir : Valid object chunkSize dir)
    (offset len : ℕ) (hoff : offset < object.length) :
    ∃ dir' r, readAt object chunkSize excluded answers dir offset len = some (dir', r) ∧
      (r = .error .fallbackToAnotherReader ∨
        ∃ data, r = .ok data ∧ data.length = min len (object.length - offset) ∧
          data = objectRange object offset (offset + data.length)) ∧
      ∀ k bytes, dir' k = some bytes →
        bytes = chunkBytes object chunkSize k ∧ bytes.length = Chunks.len chunkSize object.length k := by
  -- every file of a valid directory has its chunk's length
  have hlength : ∀ {dir' : ChunkDir}, Valid object chunkSize dir' → ∀ k bytes, dir' k = some bytes →
      bytes = chunkBytes object chunkSize k ∧ bytes.length = Chunks.len chunkSize object.length k := by
    intro dir' hvalid k bytes hk
    obtain rfl := hvalid k bytes hk
    exact ⟨rfl, length_chunkBytes object chunkSize k⟩
  unfold readAt
  split_ifs with hex hend hneg
  · exact ⟨dir, _, rfl, .inl rfl, hlength hdir⟩
  · exact absurd hend (by omega)
  · exact absurd hneg (by omega)
  · obtain ⟨dir', r, hrun, hvalid, hr⟩ := readLoop_spec object chunkSize hC answers len hoff len 0 dir offset len hdir
      (Nat.le_refl _) (Nat.le_of_lt hoff) (by omega) (Nat.le_refl _)
    rw [Nat.sub_self, List.take_zero] at hrun
    refine ⟨dir', r, by rw [Int.toNat_natCast]; exact hrun, ?_, hlength hvalid⟩
    rcases hr with rfl | rfl
    · exact .inl rfl
    · exact .inr ⟨_, rfl, drop_take_eq_objectRange object offset len⟩

/-- Every call succeeding. -/
def allSucceed : RoundAnswers := ⟨false, ⟨true, .ok, true, true, true, 2, false, true, true⟩, false, false⟩

/-- Three bytes at offset 1 of a five-byte object, in chunks of two, from
an empty directory: the read spans chunks 0 and 1. -/
theorem read_spanning_two_chunks :
    ∃ dir', readAt [1, 2, 3, 4, 5] 2 false (fun _ => allSucceed) (fun _ => none) 1 3 = some (dir', .ok [2, 3, 4]) := by
  obtain ⟨dir', r, hread, hr, -⟩ := read_at_returns_object_bytes [1, 2, 3, 4, 5] 2 (by decide) false
    (fun _ => allSucceed) (fun _ => none) (fun _ _ h => by cases h) 1 3 (by decide)
  rw [Nat.cast_one] at hread
  rcases hr with rfl | ⟨data, rfl, hlen, hdata⟩
  · -- every call succeeds, so the read does not fall back
    have hrun : (readAt [1, 2, 3, 4, 5] 2 false (fun _ => allSucceed) (fun _ => none) 1 3).map Prod.snd =
        some (.ok [2, 3, 4]) := rfl
    rw [hread] at hrun
    cases hrun
  · rw [hlen] at hdata
    refine ⟨dir', ?_⟩
    rw [hread, hdata]
    rfl

end SharedChunkCacheReader

end Gcsx

end GcsFuse
