import GcsFuse.Gcsx.RangeReader
/-!
# Reads from GCS — what every read returns

On a bucket that returns exactly the range it is asked for, every read
of a sequence at an offset inside the object succeeds and returns bytes
of the object from that offset, whatever stream the earlier reads left:
`skipBytes` moves the stream to the offset or `invalidateReaderIfMisalignedOrTooSmall`
drops it, and a kept stream covers the whole request. A new stream
covers only the prefetch window, which is at least `minReadSize`: a read
can return fewer bytes than the request and the object allow, never
fewer than 1 MiB of them, and it does exactly when it opens a stream
over a window shorter than that, whose bytes it then returns
(`newReaderWindow`). `first_random_read_short` is such a read.

The invariant is `RangeReader.Inv`: an open stream lies in the object and
has bytes left.
-/

namespace GcsFuse

namespace Gcsx

/-- The bytes a read put in the buffer: the stream delivers the object's
bytes from `position` on. -/
def ReadResult.bytes {β : Type*} (obj : ℕ → β) (r : ReadResult) : List β :=
  (List.range' r.position r.size).map obj

namespace RangeReader

variable {size : ℕ}

/-- An open stream lies inside the object and has bytes left. -/
def Inv (size : ℕ) (rr : RangeReader) : Prop :=
  rr.reader = true → 0 ≤ rr.start ∧ rr.start < rr.limit ∧ rr.limit ≤ size

/-- Within a read a stream may have run to its end. -/
def Inside (size : ℕ) (rr : RangeReader) : Prop :=
  rr.reader = true → 0 ≤ rr.start ∧ rr.start ≤ rr.limit ∧ rr.limit ≤ size

theorem inv_new : new.Inv size := nofun

theorem Inv.inside {rr : RangeReader} (h : rr.Inv size) : rr.Inside size := fun hr => by
  obtain ⟨h0, hlt, hle⟩ := h hr
  exact ⟨h0, by omega, hle⟩

@[simp] theorem skipBytes_reader (rr : RangeReader) (offset : ℕ) :
    (rr.skipBytes offset).reader = rr.reader := by
  unfold skipBytes
  split <;> rfl

@[simp] theorem skipBytes_limit (rr : RangeReader) (offset : ℕ) :
    (rr.skipBytes offset).limit = rr.limit := by
  unfold skipBytes
  split <;> rfl

/-- Skipping forward stops at the end of the stream. -/
theorem Inv.skipBytes {rr : RangeReader} (h : rr.Inv size) (offset : ℕ) :
    (rr.skipBytes offset).Inside size := by
  intro hr
  rw [skipBytes_reader] at hr
  obtain ⟨h0, hlt, hle⟩ := h hr
  simp only [RangeReader.skipBytes]
  split
  · simp only
    omega
  · exact ⟨h0, by omega, hle⟩

/-- **A stream that survives the check is at the offset and covers the
request, cut at the object's end.** -/
theorem Inside.invalidate {rr : RangeReader} (h : rr.Inside size) (offset len : ℕ) :
    (invalidateReaderIfMisalignedOrTooSmall size rr offset (offset + len)).Inside size ∧
      ((invalidateReaderIfMisalignedOrTooSmall size rr offset (offset + len)).reader = true →
        (invalidateReaderIfMisalignedOrTooSmall size rr offset (offset + len)).start = offset ∧
          (min (offset + len) size : Int) ≤
            (invalidateReaderIfMisalignedOrTooSmall size rr offset (offset + len)).limit) := by
  simp only [invalidateReaderIfMisalignedOrTooSmall]
  split
  · exact ⟨nofun, nofun⟩
  · rename_i hkeep
    refine ⟨h, fun hr => ?_⟩
    have := hkeep
    refine ⟨?_, ?_⟩ <;> grind

/-- **`readFull` takes what fits in the buffer and the stream**, from an
open stream inside the object; a stream read to its end is closed, so
the stream left keeps the invariant. -/
theorem readFromRangeReader_open {rr : RangeReader} (hi : rr.Inside size) (hr : rr.reader = true)
    (len offset endOffset : ℕ) :
    (readFromRangeReader rr len offset endOffset).2 =
        .ok ⟨min len (rr.limit - rr.start).toNat, rr.start.toNat⟩ ∧
      (readFromRangeReader rr len offset endOffset).1.Inv size := by
  obtain ⟨h0, hle, hsize⟩ := hi hr
  unfold readFromRangeReader
  simp only [hr, ↓reduceIte]
  -- `readFull` never passes the stream's end
  rw [if_neg (by omega)]
  by_cases hend : rr.start + ↑(min len (rr.limit - rr.start).toNat) = rr.limit
  · -- the stream is read to its end and closed
    rw [if_pos hend, if_neg (by simp [closeReader])]
    exact ⟨rfl, nofun⟩
  · -- a stream with bytes left has filled the buffer
    rw [if_neg hend, if_neg fun hh => by have := hh.1; omega]
    exact ⟨rfl, fun _ => ⟨by dsimp only; omega, by dsimp only; omega, hsize⟩⟩

/-- Without a stream, `startRead` opens one over `[offset, endOffset)`. -/
theorem readFromRangeReader_closed {rr : RangeReader} (hr : rr.reader = false) (len offset endOffset : ℕ) :
    readFromRangeReader rr len offset endOffset =
      readFromRangeReader ⟨offset, endOffset, true⟩ len offset endOffset := by
  simp [readFromRangeReader, hr]

/-- **`RangeReader.ReadAt`**: from any stream the invariant allows, the
read succeeds at the offset with the whole request, cut at the object's
end, where a stream survives the checks, and otherwise with what a new
stream over `[offset, endOffset)` holds. -/
theorem readAt_spec {rr : RangeReader} (h : rr.Inv size) (len : ℕ) {offset endOffset : ℕ}
    (hoff : offset < endOffset) (hend : endOffset ≤ size) :
    ∃ n, (rr.readAt size len offset endOffset).2 = .ok ⟨n, offset⟩ ∧
      n = (if (invalidateReaderIfMisalignedOrTooSmall size (rr.skipBytes offset) offset (offset + len)).reader
        then min len (size - offset) else min len (endOffset - offset)) ∧
      (rr.readAt size len offset endOffset).1.Inv size := by
  have hsize : offset < size := Nat.lt_of_lt_of_le hoff hend
  obtain ⟨hin, hcov⟩ := (h.skipBytes offset).invalidate offset len
  unfold RangeReader.readAt
  simp only
  set rr' := invalidateReaderIfMisalignedOrTooSmall size (rr.skipBytes offset) offset (offset + len)
  split
  · -- the stream kept is at the offset and covers the request
    rename_i hr
    obtain ⟨hs, hl⟩ := hcov hr
    obtain ⟨hres, hinv⟩ := readFromRangeReader_open hin hr len offset (offset + len)
    obtain ⟨-, -, hle⟩ := hin hr
    refine ⟨min len (rr'.limit - rr'.start).toNat, ?_, ?_, hinv⟩
    · rw [hres, hs, Int.toNat_natCast]
    · -- the stream ends at or past the request, cut at the object's end
      omega
  · -- a new stream over the window
    rename_i hr
    rw [readFromRangeReader_closed (Bool.eq_false_iff.2 hr)]
    have hnew : Inside size ⟨offset, endOffset, true⟩ := fun _ => by
      refine ⟨?_, ?_, ?_⟩ <;> dsimp only <;> omega
    obtain ⟨hres, hinv⟩ := readFromRangeReader_open hnew rfl len offset endOffset
    refine ⟨min len (endOffset - offset), ?_, rfl, hinv⟩
    rw [hres]
    simp only [Int.toNat_natCast]
    congr 2
    omega

end RangeReader

namespace ReadTypeClassifier

@[simp] theorem getReadInfo_sequentialReadSizeMb (rtc : ReadTypeClassifier) (offset : ℕ)
    (seekRecorded : Bool) :
    (rtc.getReadInfo offset seekRecorded).1.sequentialReadSizeMb = rtc.sequentialReadSizeMb := rfl

@[simp] theorem computeSeqPrefetchWindowAndAdjustType_sequentialReadSizeMb (rtc : ReadTypeClassifier) :
    rtc.computeSeqPrefetchWindowAndAdjustType.1.sequentialReadSizeMb = rtc.sequentialReadSizeMb := by
  simp only [computeSeqPrefetchWindowAndAdjustType]
  split <;> rfl

@[simp] theorem recordRead_sequentialReadSizeMb (rtc : ReadTypeClassifier) (offset sizeRead : ℕ) :
    (rtc.recordRead offset sizeRead).sequentialReadSizeMb = rtc.sequentialReadSizeMb := rfl

/-- **The prefetch window is at least `minReadSize`**, given a
`sequential-read-size-mb` of at least 1, as the configuration checks. -/
theorem minReadSize_le_window (rtc : ReadTypeClassifier) (h : 1 ≤ rtc.sequentialReadSizeMb) :
    minReadSize ≤ rtc.computeSeqPrefetchWindowAndAdjustType.2 := by
  simp only [computeSeqPrefetchWindowAndAdjustType]
  split
  · -- random: clamped to `[minReadSize, maxReadSize]`
    simp only [minReadSize, maxReadSize, mb]
    omega
  · simp only [minReadSize, mb]
    omega

end ReadTypeClassifier

section Reads

variable {size : ℕ}

/-- What a read path keeps: its stream invariant, and a sequential read
size of at least 1 MiB. -/
structure ReadsInv (size : ℕ) (st : Reads) : Prop where
  rangeReader : st.rangeReader.Inv size
  sequentialReadSizeMb : 1 ≤ st.classifier.sequentialReadSizeMb

/-- What a read of `len` bytes at `offset` may return: bytes of the object
from the offset, no more than the request and the object allow, and no
fewer than these or 1 MiB. -/
def Fits (size offset len : ℕ) (r : ReadResult) : Prop :=
  r.position = offset ∧ r.size ≤ min len (size - offset) ∧
    min (min len (size - offset)) minReadSize ≤ r.size

/-- The window of the stream a read of `len` bytes at `offset` opens from
`st`, cut at the object's end, as `readAt` computes it; `none` where the
read asks GCS for nothing or the stream the earlier reads left serves
it. -/
def newReaderWindow (size : ℕ) (st : Reads) (offset len : ℕ) : Option ℕ :=
  if size ≤ offset ∨ len = 0 then none
  else
    let g := st.classifier.getReadInfo offset false
    let c := if g.2.expectedOffset ≠ g.1.expectedOffset then (g.1.getReadInfo offset g.2.seekRecorded).1 else g.1
    if (RangeReader.invalidateReaderIfMisalignedOrTooSmall size (st.rangeReader.skipBytes offset) offset
        (offset + len)).reader then none
    else some ((getEndOffset size c offset).2 - offset)

/-- A read of `n` bytes where `full` were asked for and there: it comes
back short exactly where it opened a stream over a window `W` shorter
than `full`, and then with `W` bytes. -/
def ShortOnlyAtWindow (window : Option ℕ) (full n : ℕ) : Prop :=
  (n < full ↔ ∃ W, window = some W ∧ W < full) ∧ ∀ W, window = some W → W < full → n = W

/-- **One read**: from any state of the invariant, a read at an offset
inside the object succeeds, fits, is short only where it opened a short
window, and keeps the invariant. -/
theorem readAt_fits {st : Reads} (h : ReadsInv size st) {offset : ℕ} (len : ℕ) (hoff : offset < size) :
    ∃ r, (readAt size st offset len).2 = .ok r ∧ Fits size offset len r ∧
      ShortOnlyAtWindow (newReaderWindow size st offset len) (min len (size - offset)) r.size ∧
      ReadsInv size (readAt size st offset len).1 := by
  unfold readAt
  rw [if_neg (by omega)]
  split
  · -- an empty buffer reads nothing, and opens no stream
    rename_i hlen
    have hw : newReaderWindow size st offset len = none := by simp [newReaderWindow, hlen]
    exact ⟨_, rfl, ⟨rfl, by simp, by simp [hlen]⟩, ⟨by simp [hlen], fun W hW => by simp [hw] at hW⟩, h⟩
  · rename_i hlen
    unfold gcsRead getEndOffset
    simp only
    -- the classifier the window is computed from
    set c := (if (st.classifier.getReadInfo offset false).2.expectedOffset ≠
        (st.classifier.getReadInfo offset false).1.expectedOffset then
        ((st.classifier.getReadInfo offset false).1.getReadInfo offset
          (st.classifier.getReadInfo offset false).2.seekRecorded).1
      else (st.classifier.getReadInfo offset false).1) with hc
    have hseq : c.sequentialReadSizeMb = st.classifier.sequentialReadSizeMb := by
      rw [hc]
      split <;> simp
    have hw := c.minReadSize_le_window (hseq ▸ h.sequentialReadSizeMb)
    have hpos : 0 < minReadSize := by decide
    obtain ⟨n, hres, hn, hinv⟩ := RangeReader.readAt_spec h.rangeReader len
      (show offset < min (offset + c.computeSeqPrefetchWindowAndAdjustType.2) size by omega)
      (show min (offset + c.computeSeqPrefetchWindowAndAdjustType.2) size ≤ size by omega)
    -- the window `newReaderWindow` names is the one the read computed
    have hwin : newReaderWindow size st offset len =
        if (RangeReader.invalidateReaderIfMisalignedOrTooSmall size (st.rangeReader.skipBytes offset) offset
          (offset + len)).reader then none
        else some (min (offset + c.computeSeqPrefetchWindowAndAdjustType.2) size - offset) := by
      simp only [newReaderWindow, if_neg (show ¬(size ≤ offset ∨ len = 0) by omega), getEndOffset, hc]
    rw [hres]
    refine ⟨_, rfl, ⟨rfl, ?_, ?_⟩, ?_, ⟨hinv, ?_⟩⟩
    · split at hn <;> dsimp only <;> omega
    · split at hn <;> dsimp only <;> omega
    · -- a kept stream serves the whole request; a new one its window
      rw [hwin]
      unfold ShortOnlyAtWindow
      dsimp only
      split at hn
      · rename_i hkeep
        rw [if_pos hkeep]
        exact ⟨⟨fun hlt => by omega, fun ⟨W, hW, _⟩ => by cases hW⟩, fun W hW => by cases hW⟩
      · rename_i hkeep
        rw [if_neg hkeep]
        refine ⟨⟨fun hlt => ⟨_, rfl, by omega⟩, fun ⟨W, hW, hlt⟩ => ?_⟩, fun W hW hlt => ?_⟩
        · rw [Option.some.injEq] at hW
          omega
        · rw [Option.some.injEq] at hW
          omega
    · simp [hseq, h.sequentialReadSizeMb]

/-- The read at index `i` of a sequence is the one from the state the
reads before it left. -/
theorem readAll_getElem? : ∀ (st : Reads) (reqs : List (ℕ × ℕ)) (i : ℕ) (hi : i < reqs.length),
    (readAll size st reqs).2[i]? = some (readAt size (readAll size st (reqs.take i)).1 reqs[i].1 reqs[i].2).2
  | _, [], _, hi => absurd hi (Nat.not_lt_zero _)
  | _, (_, _) :: _, 0, _ => rfl
  | st, (offset, len) :: reqs, i + 1, hi => by
    simp only [readAll, List.take_succ_cons, List.getElem_cons_succ, List.getElem?_cons_succ]
    exact readAll_getElem? _ reqs i (by simpa using hi)

theorem readAll_length : ∀ (st : Reads) (reqs : List (ℕ × ℕ)), (readAll size st reqs).2.length = reqs.length
  | _, [] => rfl
  | _, (_, _) :: reqs => by simp [readAll, readAll_length _ reqs]

/-- The run lemma: reads at offsets inside the object keep the invariant. -/
theorem readAll_inv : ∀ (reqs : List (ℕ × ℕ)) {st : Reads}, ReadsInv size st → (∀ q ∈ reqs, q.1 < size) →
    ReadsInv size (readAll size st reqs).1
  | [], _, h, _ => h
  | (offset, len) :: reqs, _, h, hreqs => by
    obtain ⟨-, -, -, -, hinv⟩ := readAt_fits h len (hreqs _ List.mem_cons_self)
    exact readAll_inv reqs hinv fun q hq => hreqs q (List.mem_cons_of_mem _ hq)

/-- **Every read of a sequence returns bytes of the object from its
offset**, for a handle whose first read is at any offset: no more than
the buffer and the object allow, and no fewer than these or 1 MiB; so
all of them for a buffer of at most 1 MiB, as FUSE's reads are. A read
is short exactly where it opens a stream over a window `W` shorter than
the buffer and the object allow, from the state the reads before it
left, and then returns the `W` bytes. -/
theorem gcs_reads_return_object_bytes {β : Type*} (size : ℕ) (obj : ℕ → β)
    (sequentialReadSizeMb initialOffset : ℕ) (hseq : 1 ≤ sequentialReadSizeMb)
    (reqs : List (ℕ × ℕ)) (hreqs : ∀ q ∈ reqs, q.1 < size) :
    (readAll size (Reads.init sequentialReadSizeMb initialOffset) reqs).2.length = reqs.length ∧
      ∀ i (hi : i < reqs.length), ∃ r,
        (readAll size (Reads.init sequentialReadSizeMb initialOffset) reqs).2[i]? = some (.ok r) ∧
        r.bytes obj = (List.range' reqs[i].1 r.size).map obj ∧
        r.size ≤ min reqs[i].2 (size - reqs[i].1) ∧ min (min reqs[i].2 (size - reqs[i].1)) minReadSize ≤ r.size ∧
        (reqs[i].2 ≤ minReadSize → r.size = min reqs[i].2 (size - reqs[i].1)) ∧
        (r.size < min reqs[i].2 (size - reqs[i].1) ↔
          ∃ W, newReaderWindow size (readAll size (Reads.init sequentialReadSizeMb initialOffset) (reqs.take i)).1
            reqs[i].1 reqs[i].2 = some W ∧ W < min reqs[i].2 (size - reqs[i].1)) ∧
        ∀ W, newReaderWindow size (readAll size (Reads.init sequentialReadSizeMb initialOffset) (reqs.take i)).1
            reqs[i].1 reqs[i].2 = some W → W < min reqs[i].2 (size - reqs[i].1) → r.size = W := by
  have hinit : ReadsInv size (Reads.init sequentialReadSizeMb initialOffset) :=
    ⟨RangeReader.inv_new, hseq⟩
  refine ⟨readAll_length _ reqs, fun i hi => ?_⟩
  -- read `i` is a read from the state the reads before it left
  have hbefore := readAll_inv (reqs.take i) hinit fun q hq => hreqs q (List.mem_of_mem_take hq)
  obtain ⟨r, hres, ⟨hpos, hle, hge⟩, ⟨hshort, hwin⟩, -⟩ :=
    readAt_fits hbefore reqs[i].2 (hreqs _ (List.getElem_mem hi))
  refine ⟨r, by rw [readAll_getElem? _ reqs i hi, hres], by rw [ReadResult.bytes, hpos], hle, hge,
    fun hsmall => ?_, hshort, hwin⟩
  -- a buffer of at most 1 MiB is below the window
  omega

/-- Two reads of a 4 MiB object of bytes `id`, the first at offset 1. -/
theorem gcs_reads_return_object_bytes_two_reads :
    1 ≤ 200 ∧ (∀ q ∈ [(1, 2097152), (1048577, 4096)], q.1 < 4194304) ∧
      ((readAll 4194304 (Reads.init 200 1) [(1, 2097152), (1048577, 4096)]).2.length =
          [(1, 2097152), (1048577, 4096)].length ∧
        ∀ i (hi : i < [(1, 2097152), (1048577, 4096)].length), ∃ r,
          (readAll 4194304 (Reads.init 200 1) [(1, 2097152), (1048577, 4096)]).2[i]? = some (.ok r) ∧
          r.bytes id = (List.range' [(1, 2097152), (1048577, 4096)][i].1 r.size).map id ∧
          r.size ≤ min [(1, 2097152), (1048577, 4096)][i].2 (4194304 - [(1, 2097152), (1048577, 4096)][i].1) ∧
          min (min [(1, 2097152), (1048577, 4096)][i].2 (4194304 - [(1, 2097152), (1048577, 4096)][i].1))
            minReadSize ≤ r.size ∧
          ([(1, 2097152), (1048577, 4096)][i].2 ≤ minReadSize →
            r.size = min [(1, 2097152), (1048577, 4096)][i].2 (4194304 - [(1, 2097152), (1048577, 4096)][i].1)) ∧
          (r.size < min [(1, 2097152), (1048577, 4096)][i].2 (4194304 - [(1, 2097152), (1048577, 4096)][i].1) ↔
            ∃ W, newReaderWindow 4194304 (readAll 4194304 (Reads.init 200 1)
                ([(1, 2097152), (1048577, 4096)].take i)).1 [(1, 2097152), (1048577, 4096)][i].1
                [(1, 2097152), (1048577, 4096)][i].2 = some W ∧
              W < min [(1, 2097152), (1048577, 4096)][i].2 (4194304 - [(1, 2097152), (1048577, 4096)][i].1)) ∧
          ∀ W, newReaderWindow 4194304 (readAll 4194304 (Reads.init 200 1)
                ([(1, 2097152), (1048577, 4096)].take i)).1 [(1, 2097152), (1048577, 4096)][i].1
                [(1, 2097152), (1048577, 4096)][i].2 = some W →
            W < min [(1, 2097152), (1048577, 4096)][i].2 (4194304 - [(1, 2097152), (1048577, 4096)][i].1) →
            r.size = W) :=
  ⟨by decide, by decide,
    gcs_reads_return_object_bytes 4194304 id 200 1 (by decide) _ (by decide)⟩

/-- The first read of a handle, at offset 1 of a 4 MiB object, into a
buffer of 2 MiB: a first read past 0 is random, its window is 1 MiB, and
the stream it opens ends there. The read returns 1 MiB, not the 2 MiB the
buffer and the object allow. -/
theorem first_random_read_short :
    (readAll 4194304 (Reads.init 200 1) [(1, 2097152)]).2 = [.ok ⟨1048576, 1⟩] ∧
      min 2097152 (4194304 - 1) = 2097152 :=
  ⟨rfl, rfl⟩

end Reads

end Gcsx

end GcsFuse
