import GcsFuse.Downloader.RangeMapSpec
import GcsFuse.Downloader.JobInvariants
/-!
# Sequential downloads — the loop of `downloadObjectToFile`

`downloadObjectToFile` reads the object through readers of at most
`sequentialReadSize` bytes, opened at `start` when none is open and
closed when `start` reaches their limit, and copies at most
`ReadChunkSize` bytes a round into the cache file, reporting the new
offset through `updateStatusOffset`. With every call succeeding, the
loop is the events it causes, in order; `fuel` bounds its rounds.

The readers it opens are the chunks `objectRanges` of
`sequentialReadSize`, and each is copied in the pieces `writeRanges` of
the parallel driver (`downloadObjectToFile_eq`). Each round copies at
least one byte once `sequentialReadSize` is positive, so the object's
size is enough fuel; at `0` the loop never ends
(`downloadObjectToFile_zero`). The readers and the pieces tile the object
(`Runs.Tiles`), and each report follows the copy it reports.
`Job.asyncChunk` takes the same round (`Job.asyncChunk_written`).
-/

namespace GcsFuse

namespace Downloader

open Runs

/-- What the loop does outside: open a reader on a range, copy bytes to
an offset of the file (`io.CopyN` through an `OffsetWriter`), report an
offset. -/
inductive LoopEvent
  | newReader (start limit : ℕ)
  | copyN (offset n : ℕ)
  | updateStatusOffset (offset : ℕ)
  deriving DecidableEq, Repr

namespace LoopEvent

def isNewReader : LoopEvent → Bool
  | .newReader _ _ => true
  | _ => false

/-- The readers' ranges, in order. -/
def readers (es : List LoopEvent) : List (ℕ × ℕ) :=
  es.filterMap fun | .newReader start limit => some (start, limit) | _ => none

/-- The bytes copied, as ranges, in order. -/
def copies (es : List LoopEvent) : List (ℕ × ℕ) :=
  es.filterMap fun | .copyN offset n => some (offset, offset + n) | _ => none

/-- The offsets reported, in order. -/
def reports (es : List LoopEvent) : List ℕ :=
  es.filterMap fun | .updateStatusOffset offset => some offset | _ => none

@[simp] theorem readers_append (es es' : List LoopEvent) :
    readers (es ++ es') = readers es ++ readers es' := List.filterMap_append

@[simp] theorem copies_append (es es' : List LoopEvent) :
    copies (es ++ es') = copies es ++ copies es' := List.filterMap_append

@[simp] theorem reports_append (es es' : List LoopEvent) :
    reports (es ++ es') = reports es ++ reports es' := List.filterMap_append

end LoopEvent

open LoopEvent

variable (size sequentialReadSize : ℕ)

/-- The limit of the reader a round at `start` reads from: the open one's,
or `min(start+sequentialReadSize, end)` for the one it opens. -/
def readerLimit (start : ℕ) (newReaderLimit : Option ℕ) : ℕ :=
  newReaderLimit.getD (min (start + sequentialReadSize) size)

/-- `downloadObjectToFile` from `start` with a reader open up to
`newReaderLimit`, when every call succeeds: the events, or `none` when
`fuel` rounds do not end the loop. -/
def downloadObjectToFile : ℕ → ℕ → Option ℕ → Option (List LoopEvent)
  | 0, start, _ => if start < size then none else some []
  | fuel + 1, start, newReaderLimit =>
    if start < size then
      let limit := readerLimit size sequentialReadSize start newReaderLimit
      let maxRead := min readChunkSize (limit - start)
      let start' := start + maxRead
      -- the reader is closed once `start` reaches its limit
      let next := if start' = limit then none else some limit
      let opened := if newReaderLimit.isNone then [LoopEvent.newReader start limit] else []
      (downloadObjectToFile fuel start' next).map fun rest =>
        opened ++ .copyN start maxRead :: .updateStatusOffset start' :: rest
    else some []

/-! ## The events, read off the driver's ranges -/

/-- Copy each range, then report its end. -/
def copyEvents (ws : List (ℕ × ℕ)) : List LoopEvent :=
  ws.flatMap fun w => [.copyN w.1 (w.2 - w.1), .updateStatusOffset w.2]

/-- The pieces `[start, stop)` copied from one reader. -/
def pieceEvents (start stop : ℕ) : List LoopEvent := copyEvents (writeRanges start stop)

/-- The readers from `start` on, each with its pieces. -/
def readerEvents (start : ℕ) : List LoopEvent :=
  (objectRanges size sequentialReadSize start).flatMap fun r => .newReader r.1 r.2 :: pieceEvents r.1 r.2

/-- What is left from a state of the loop: the open reader's pieces, then
the readers after it. -/
def restEvents (start : ℕ) : Option ℕ → List LoopEvent
  | none => readerEvents size sequentialReadSize start
  | some limit => pieceEvents start limit ++ readerEvents size sequentialReadSize limit

theorem pieceEvents_self (stop : ℕ) : pieceEvents stop stop = [] := by
  rw [pieceEvents, writeRanges, dif_neg (Nat.lt_irrefl _), copyEvents, List.flatMap_nil]

theorem pieceEvents_of_lt {start stop : ℕ} (h : start < stop) :
    pieceEvents start stop =
      .copyN start (min readChunkSize (stop - start)) ::
        .updateStatusOffset (start + min readChunkSize (stop - start)) ::
          pieceEvents (start + min readChunkSize (stop - start)) stop := by
  rw [pieceEvents, writeRanges, dif_pos h, copyEvents, List.flatMap_cons, Nat.min_comm,
    Nat.add_sub_cancel_left]
  rfl

theorem readerEvents_of_le {start : ℕ} (h : size ≤ start) : readerEvents size sequentialReadSize start = [] := by
  rw [readerEvents, objectRanges, dif_neg fun hlt => Nat.not_lt.2 h hlt.1, List.flatMap_nil]

theorem readerEvents_of_lt (hsrs : 0 < sequentialReadSize) {start : ℕ} (h : start < size) :
    readerEvents size sequentialReadSize start =
      .newReader start (min (start + sequentialReadSize) size) ::
        (pieceEvents start (min (start + sequentialReadSize) size) ++
          readerEvents size sequentialReadSize (min (start + sequentialReadSize) size)) := by
  rw [readerEvents, objectRanges, dif_pos ⟨h, hsrs⟩, List.flatMap_cons, Nat.min_comm]
  rfl

/-- The round's next state leaves the rest of the open reader's pieces. -/
theorem restEvents_next (start limit : ℕ) :
    restEvents size sequentialReadSize start (if start = limit then none else some limit) =
      pieceEvents start limit ++ readerEvents size sequentialReadSize limit := by
  split_ifs with hend
  · rw [restEvents, hend, pieceEvents_self, List.nil_append]
  · rfl

/-! ## One round, and the whole loop -/

/-- A state of the loop: an open reader ends past `start`, within the
object. -/
def LoopState (start : ℕ) (newReaderLimit : Option ℕ) : Prop :=
  ∀ limit, newReaderLimit = some limit → start < limit ∧ limit ≤ size

/-- At the object's end no reader is open. -/
theorem LoopState.eq_none {start : ℕ} {newReaderLimit : Option ℕ} (h : LoopState size start newReaderLimit)
    (hend : size ≤ start) : newReaderLimit = none := by
  cases newReaderLimit with
  | none => rfl
  | some l => exact absurd (h l rfl) (by omega)

section Round

variable {size sequentialReadSize} (hsrs : 0 < sequentialReadSize) {start : ℕ} {newReaderLimit : Option ℕ}
  (hstate : LoopState size start newReaderLimit) (hstart : start < size)
include hsrs hstate hstart

/-- **One round**: it copies at least one byte and at most what is left
of its reader, and leaves a state of the loop. -/
theorem round_spec :
    let limit := readerLimit size sequentialReadSize start newReaderLimit
    start < limit ∧ limit ≤ size ∧ 0 < min readChunkSize (limit - start) ∧
      start + min readChunkSize (limit - start) ≤ limit := by
  have hchunk : 0 < readChunkSize := by decide
  intro limit
  have hlimit : start < limit ∧ limit ≤ size := by
    cases newReaderLimit with
    | none =>
      show start < min (start + sequentialReadSize) size ∧ min (start + sequentialReadSize) size ≤ size
      omega
    | some l => exact hstate l rfl
  omega

theorem round_loopState :
    let limit := readerLimit size sequentialReadSize start newReaderLimit
    let start' := start + min readChunkSize (limit - start)
    LoopState size start' (if start' = limit then none else some limit) := by
  obtain ⟨hlt, hle, hpos, hstep⟩ := round_spec hsrs hstate hstart
  intro limit start' l hl
  split_ifs at hl with hend
  cases hl
  omega

/-- **The events left, one round on**: the reader the round opens, its
copy and its report, then what is left from its next state. -/
theorem restEvents_round :
    let limit := readerLimit size sequentialReadSize start newReaderLimit
    let start' := start + min readChunkSize (limit - start)
    restEvents size sequentialReadSize start newReaderLimit =
      (if newReaderLimit.isNone then [LoopEvent.newReader start limit] else []) ++
        .copyN start (min readChunkSize (limit - start)) :: .updateStatusOffset start' ::
          restEvents size sequentialReadSize start' (if start' = limit then none else some limit) := by
  obtain ⟨hlt, -, -, -⟩ := round_spec hsrs hstate hstart
  intro limit start'
  rw [restEvents_next size sequentialReadSize start' limit]
  -- the round's copy and report are the first of the reader's pieces
  cases newReaderLimit with
  | none =>
    rw [restEvents, readerEvents_of_lt size sequentialReadSize hsrs hstart,
      ← show limit = min (start + sequentialReadSize) size from rfl, pieceEvents_of_lt hlt]
    rfl
  | some l =>
    rw [restEvents, ← show limit = l from rfl, pieceEvents_of_lt hlt]
    rfl

/-- The round's report comes first among the reports left. -/
theorem reports_restEvents_round :
    let limit := readerLimit size sequentialReadSize start newReaderLimit
    let start' := start + min readChunkSize (limit - start)
    reports (restEvents size sequentialReadSize start newReaderLimit) =
      start' :: reports (restEvents size sequentialReadSize start' (if start' = limit then none else some limit)) := by
  intro limit start'
  rw [restEvents_round hsrs hstate hstart, reports_append]
  have hopened : reports (if newReaderLimit.isNone then [LoopEvent.newReader start limit] else []) = [] := by
    split <;> rfl
  rw [hopened, List.nil_append]
  rfl

end Round

/-- **The loop from any of its states**, with enough fuel: what is left
of the open reader's pieces, then the readers after it. A round copies at
least one byte, so what is left of the object is enough fuel. -/
theorem downloadObjectToFile_eq (hsrs : 0 < sequentialReadSize) :
    ∀ (fuel start : ℕ) (newReaderLimit : Option ℕ), LoopState size start newReaderLimit →
      size - start ≤ fuel →
      downloadObjectToFile size sequentialReadSize fuel start newReaderLimit =
        some (restEvents size sequentialReadSize start newReaderLimit)
  | fuel, start, newReaderLimit, hstate, hfuel => by
    by_cases hstart : start < size
    · obtain ⟨hlt, -, hpos, -⟩ := round_spec hsrs hstate hstart
      obtain ⟨fuel, rfl⟩ : ∃ f, fuel = f + 1 := ⟨fuel - 1, by omega⟩
      have ih := downloadObjectToFile_eq hsrs fuel _ _ (round_loopState hsrs hstate hstart) (by omega)
      rw [downloadObjectToFile, if_pos hstart]
      dsimp only
      rw [ih, Option.map_some, restEvents_round hsrs hstate hstart]
    · have hend : size ≤ start := Nat.le_of_not_lt hstart
      rw [hstate.eq_none size hend, restEvents, readerEvents_of_le size sequentialReadSize hend]
      cases fuel with
      | zero => exact if_neg hstart
      | succ fuel => exact if_neg hstart

/-- With `sequentialReadSize` zero, a nonempty object is never read to
its end: every reader is empty, and every round copies nothing. -/
theorem downloadObjectToFile_zero (hsize : 0 < size) :
    ∀ (fuel : ℕ) (newReaderLimit : Option ℕ), newReaderLimit = none ∨ newReaderLimit = some 0 →
      downloadObjectToFile size 0 fuel 0 newReaderLimit = none
  | 0, _, _ => if_pos hsize
  | fuel + 1, newReaderLimit, hnrl => by
    have hlimit : readerLimit size 0 0 newReaderLimit = 0 := by
      rcases hnrl with rfl | rfl
      · exact Nat.min_eq_left (Nat.zero_le _)
      · rfl
    rw [downloadObjectToFile, if_pos hsize]
    dsimp only
    rw [hlimit, Nat.sub_self, Nat.min_zero, Nat.zero_add, if_pos rfl,
      downloadObjectToFile_zero hsize fuel none (.inl rfl), Option.map_none]

/-! ## What the events are -/

section Events

variable {ws : List (ℕ × ℕ)}

theorem readers_copyEvents : ∀ ws : List (ℕ × ℕ), readers (copyEvents ws) = []
  | [] => rfl
  | w :: ws => by
    rw [copyEvents, List.flatMap_cons, readers_append, ← copyEvents, readers_copyEvents ws]
    rfl

theorem copies_copyEvents : ∀ {ws : List (ℕ × ℕ)}, (∀ w ∈ ws, w.1 ≤ w.2) → copies (copyEvents ws) = ws
  | [], _ => rfl
  | w :: ws, h => by
    have hw := h w List.mem_cons_self
    rw [copyEvents, List.flatMap_cons, copies_append, ← copyEvents,
      copies_copyEvents fun w' hw' => h w' (List.mem_cons_of_mem w hw')]
    show (w.1, w.1 + (w.2 - w.1)) :: ws = w :: ws
    rw [Nat.add_sub_cancel' hw]

theorem reports_copyEvents : ∀ ws : List (ℕ × ℕ), reports (copyEvents ws) = ws.map Prod.snd
  | [] => rfl
  | w :: ws => by
    rw [copyEvents, List.flatMap_cons, reports_append, ← copyEvents, reports_copyEvents ws]
    rfl

theorem filter_copyEvents (ws : List (ℕ × ℕ)) :
    (copyEvents ws).filter (fun e => !e.isNewReader) = copyEvents ws := by
  refine List.filter_eq_self.2 fun e he => ?_
  obtain ⟨w, -, he⟩ := List.mem_flatMap.1 he
  rcases List.mem_pair.1 he with rfl | rfl <;> rfl

end Events

theorem writeRanges_le (start stop : ℕ) : ∀ w ∈ writeRanges start stop, w.1 ≤ w.2 := by
  intro w hw
  by_cases h : start ≤ stop
  · exact Nat.le_of_lt (writeRanges_tiles start stop h |>.bounds w hw).2.1
  · rw [writeRanges, dif_neg (by omega)] at hw
    exact absurd hw List.not_mem_nil

/-- Every reader holds at most `sequentialReadSize` bytes. -/
theorem objectRanges_sub_le (chunk start : ℕ) : ∀ r ∈ objectRanges size chunk start, r.2 - r.1 ≤ chunk := by
  induction hn : size - start using Nat.strong_induction_on generalizing start with
  | _ n ih =>
    intro r hr
    rw [objectRanges] at hr
    split at hr
    · rename_i hlt
      rcases List.mem_cons.1 hr with rfl | hr
      · show min size (start + chunk) - start ≤ chunk
        omega
      · exact ih _ (by omega) _ rfl r hr
    · exact absurd hr List.not_mem_nil

/-- Every piece holds at most `ReadChunkSize` bytes. -/
theorem writeRanges_sub_le (start stop : ℕ) : ∀ w ∈ writeRanges start stop, w.2 - w.1 ≤ readChunkSize := by
  induction hn : stop - start using Nat.strong_induction_on generalizing start with
  | _ n ih =>
    intro w hw
    rw [writeRanges] at hw
    split at hw
    · rename_i hlt
      have hpos : 0 < readChunkSize := by decide
      rcases List.mem_cons.1 hw with rfl | hw
      · show start + min (stop - start) readChunkSize - start ≤ readChunkSize
        omega
      · exact ih _ (by omega) _ rfl w hw
    · exact absurd hw List.not_mem_nil

/-- The pieces of every reader from `start` on. -/
def pieces (start : ℕ) : List (ℕ × ℕ) :=
  (objectRanges size sequentialReadSize start).flatMap fun r => writeRanges r.1 r.2

theorem readers_readerEvents (start : ℕ) :
    readers (readerEvents size sequentialReadSize start) = objectRanges size sequentialReadSize start := by
  rw [readerEvents, readers, List.filterMap_flatMap]
  conv_rhs => rw [← List.flatMap_singleton' (objectRanges size sequentialReadSize start)]
  refine List.flatMap_congr fun r _ => ?_
  show (r.1, r.2) :: readers (pieceEvents r.1 r.2) = [r]
  rw [pieceEvents, readers_copyEvents]

theorem copies_readerEvents (start : ℕ) :
    copies (readerEvents size sequentialReadSize start) = pieces size sequentialReadSize start := by
  rw [readerEvents, copies, List.filterMap_flatMap, pieces]
  exact List.flatMap_congr fun r _ => copies_copyEvents (writeRanges_le r.1 r.2)

theorem filter_readerEvents (start : ℕ) :
    (readerEvents size sequentialReadSize start).filter (fun e => !e.isNewReader) =
      copyEvents (pieces size sequentialReadSize start) := by
  rw [readerEvents, List.filter_flatMap, pieces, copyEvents, List.flatMap_assoc]
  refine List.flatMap_congr fun r _ => ?_
  show (pieceEvents r.1 r.2).filter (fun e => !e.isNewReader) = _
  rw [pieceEvents, filter_copyEvents]
  rfl

theorem reports_readerEvents (start : ℕ) :
    reports (readerEvents size sequentialReadSize start) = (pieces size sequentialReadSize start).map Prod.snd := by
  rw [readerEvents, reports, List.filterMap_flatMap, pieces, List.map_flatMap]
  refine List.flatMap_congr fun r _ => ?_
  show reports (pieceEvents r.1 r.2) = _
  rw [pieceEvents, reports_copyEvents]

/-- The pieces tile the object from `start`. -/
theorem pieces_tiles (hsrs : 0 < sequentialReadSize) {start : ℕ} (hle : start ≤ size) :
    Tiles (pieces size sequentialReadSize start) start size := by
  have hreaders := objectRanges_tiles size sequentialReadSize hsrs start hle
  exact hreaders.flatMap _ fun r hr => writeRanges_tiles r.1 r.2 (Nat.le_of_lt (hreaders.bounds r hr).2.1)

/-- **`downloadObjectToFile` reads the whole object, in order**, for any
size and a `sequentialReadSizeMb` of at least one: the loop ends within
as many rounds as the object has bytes, whatever fuel past that; its
readers tile the object, each of at most `sequentialReadSizeMb` MiB; its
copies tile the object, each of at most `ReadChunkSize`; each copy is
followed by the report of its end, so the reports strictly increase, end
at the size, and never run ahead of the bytes written. -/
theorem download_object_to_file_covers_object (size sequentialReadSizeMb : ℕ)
    (hmb : 1 ≤ sequentialReadSizeMb) :
    ∃ events, (∀ fuel, size ≤ fuel →
        downloadObjectToFile size (sequentialReadSizeMb * 1024 * 1024) fuel 0 none = some events) ∧
      Tiles (readers events) 0 size ∧
      (∀ r ∈ readers events, r.2 - r.1 ≤ sequentialReadSizeMb * 1024 * 1024) ∧
      Tiles (copies events) 0 size ∧ (∀ c ∈ copies events, c.2 - c.1 ≤ readChunkSize) ∧
      events.filter (fun e => !e.isNewReader) = copyEvents (copies events) ∧
      (reports events).Pairwise (· < ·) ∧
      (reports events).getLast? = if size = 0 then none else some size := by
  have hsrs : 0 < sequentialReadSizeMb * 1024 * 1024 := by omega
  have hpieces := pieces_tiles size _ hsrs (Nat.zero_le size)
  refine ⟨readerEvents size (sequentialReadSizeMb * 1024 * 1024) 0, fun fuel hfuel => ?_, ?_, ?_, ?_, ?_, ?_, ?_, ?_⟩
  · exact downloadObjectToFile_eq size _ hsrs fuel 0 none (fun _ h => by cases h) (by omega)
  · rw [readers_readerEvents]
    exact objectRanges_tiles size _ hsrs 0 (Nat.zero_le size)
  · rw [readers_readerEvents]
    exact objectRanges_sub_le size _ 0
  · rw [copies_readerEvents]
    exact hpieces
  · -- each piece lies in one reader, and is cut at `ReadChunkSize`
    rw [copies_readerEvents]
    intro c hc
    obtain ⟨r, -, hc⟩ := List.mem_flatMap.1 hc
    exact writeRanges_sub_le r.1 r.2 c hc
  · rw [filter_readerEvents, copies_readerEvents]
  · rw [reports_readerEvents]
    exact hpieces.pairwise_snd
  · rw [reports_readerEvents, hpieces.last_snd]
    by_cases hsize : size = 0
    · rw [if_pos hsize.symm, if_pos hsize]
    · rw [if_neg (Ne.symm hsize), if_neg hsize]

/-- A three-byte object read with readers of 1 MiB: the last report is
the size. -/
theorem download_three_byte_object_ends_at_size :
    ∃ events, downloadObjectToFile 3 (1 * 1024 * 1024) 3 0 none = some events ∧
      (reports events).getLast? = some 3 := by
  obtain ⟨events, hrun, -, -, -, -, -, -, hlast⟩ := download_object_to_file_covers_object 3 1 (by decide)
  exact ⟨events, hrun 3 (Nat.le_refl 3), hlast.trans (if_neg (by decide))⟩

/-! ## The job's rounds -/

/-- `Job.asyncChunk` of a written piece at a state of the loop: the
round's report, and the round's next state. -/
theorem Job.asyncChunk_written {j : Job} {start : ℕ} {newReaderLimit : Option ℕ}
    (hphase : j.phase = .looping start newReaderLimit) (hstart : start < size) :
    let limit := readerLimit size sequentialReadSize start newReaderLimit
    let start' := start + min readChunkSize (limit - start)
    j.asyncChunk size sequentialReadSize .written =
      some { j.updateStatusOffset start' with phase := .looping start' (if start' = limit then none else some limit) } := by
  intro limit start'
  unfold Job.asyncChunk
  rw [hphase]
  dsimp only
  rw [if_pos hstart]
  rfl

/-- **The job's steps take the loop's rounds.** From a job at a state of
the loop, one written piece for each report left takes the job to the
object's end, with its status at the last report. -/
theorem Job.run_asyncChunk_written (parallelRanges : Option (List (ℕ × ℕ))) (hsrs : 0 < sequentialReadSize) :
    ∀ (fuel start : ℕ) (newReaderLimit : Option ℕ) (j : Job), LoopState size start newReaderLimit →
      start ≤ size → size - start ≤ fuel → j.phase = .looping start newReaderLimit →
      ∃ j', Run.run (Job.step size sequentialReadSize parallelRanges) j
          ((reports (restEvents size sequentialReadSize start newReaderLimit)).map
            fun _ => .asyncChunk .written) = some j' ∧
        j'.phase = .looping size none ∧
        j'.status.offset =
          (reports (restEvents size sequentialReadSize start newReaderLimit)).getLast?.getD j.status.offset
  | fuel, start, newReaderLimit, j, hstate, hle, hfuel, hphase => by
    by_cases hstart : start < size
    · obtain ⟨-, hlim, hpos, hstep⟩ := round_spec hsrs hstate hstart
      obtain ⟨fuel, rfl⟩ : ∃ f, fuel = f + 1 := ⟨fuel - 1, by omega⟩
      -- the round reports its end first; the rest is the next state's
      have hreports := reports_restEvents_round hsrs hstate hstart
      dsimp only at hreports
      obtain ⟨j', hrun, hend, hoffset⟩ := run_asyncChunk_written parallelRanges hsrs fuel _ _
        { j.updateStatusOffset (start + min readChunkSize (readerLimit size sequentialReadSize start newReaderLimit - start)) with
          phase := .looping _ _ } (round_loopState hsrs hstate hstart) (by omega) (by omega) rfl
      refine ⟨j', ?_, hend, ?_⟩
      · have hchunk := Job.asyncChunk_written size sequentialReadSize hphase hstart
        dsimp only at hchunk
        rw [hreports, List.map_cons, Run.run_cons]
        show (j.asyncChunk size sequentialReadSize .written).bind _ = _
        rw [hchunk, Option.bind_some]
        exact hrun
      · rw [hreports, List.getLast?_cons, Option.getD_some, hoffset]
        rfl
    · have hend : start = size := by omega
      subst hend
      rw [hstate.eq_none start (Nat.le_refl _)] at hphase ⊢
      rw [restEvents, readerEvents_of_le start sequentialReadSize (Nat.le_refl _)]
      exact ⟨j, rfl, hphase, rfl⟩

end Downloader

end GcsFuse
