import GcsFuse.Downloader.Job
import GcsFuse.Downloader.RangeMapSpec
/-!
# Download job — what every run keeps

Three facts about every reachable state of the job and every step from
it. The offset never decreases: only the loop of the goroutine writes
it, with the position it reached, and on the parallel path
`updateRangeMap`, with the end of the finished prefix, which the range
map tracks (`JobInv`, `ParallelTracks`). Every notification goes to a
subscriber at most once, with a status that passes its test (`SubInv`):
`notifySubscribers` moves the subscribers it tells out of the list. Once
the status is past `Downloading` it never goes back; an `Invalid` status
becomes `Completed` only by the final step of a download that an
`Invalidate` cancelled and still waits for, and once the goroutine is
done, or was never started, `Invalid` is final.

The step function is unfolded once per call, in the inversion lemmas of
the second section; the invariants are proved from them.
-/

namespace GcsFuse

namespace Downloader

open Run Runs

/-! ## `notifySubscribers` -/

theorem notifyLoop_fst (status : JobStatus) (subs : List (ℕ × ℕ)) :
    (notifyLoop status subs).1 = subs.filter fun s => !notifiable status s.2 := by
  induction subs with
  | nil => rfl
  | cons sub subs ih =>
    simp only [notifyLoop]
    split <;> simp_all

theorem notifyLoop_snd (status : JobStatus) (subs : List (ℕ × ℕ)) :
    (notifyLoop status subs).2 =
      (subs.filter fun s => notifiable status s.2).map fun s => (s.1, status) := by
  induction subs with
  | nil => rfl
  | cons sub subs ih =>
    simp only [notifyLoop]
    split <;> simp_all

namespace Job

@[simp] theorem notifySubscribers_status (j : Job) : j.notifySubscribers.status = j.status := rfl
@[simp] theorem notifySubscribers_phase (j : Job) : j.notifySubscribers.phase = j.phase := rfl
@[simp] theorem notifySubscribers_invalidators (j : Job) :
    j.notifySubscribers.invalidators = j.invalidators := rfl
@[simp] theorem notifySubscribers_cancelFunc (j : Job) :
    j.notifySubscribers.cancelFunc = j.cancelFunc := rfl
@[simp] theorem subscribe_status (j : Job) (o : ℕ) : (j.subscribe o).status = j.status := rfl
@[simp] theorem subscribe_phase (j : Job) (o : ℕ) : (j.subscribe o).phase = j.phase := rfl
@[simp] theorem subscribe_invalidators (j : Job) (o : ℕ) :
    (j.subscribe o).invalidators = j.invalidators := rfl
@[simp] theorem subscribe_cancelFunc (j : Job) (o : ℕ) : (j.subscribe o).cancelFunc = j.cancelFunc :=
  rfl

@[simp] theorem updateStatusAndNotifySubscribers_status (j : Job) (name : JobStatusName)
    (err : Option JobError) :
    (j.updateStatusAndNotifySubscribers name err).status = { j.status with name := name, err := err } :=
  rfl

@[simp] theorem updateStatusAndNotifySubscribers_phase (j : Job) (name : JobStatusName)
    (err : Option JobError) : (j.updateStatusAndNotifySubscribers name err).phase = j.phase := rfl

@[simp] theorem updateStatusAndNotifySubscribers_invalidators (j : Job) (name : JobStatusName)
    (err : Option JobError) :
    (j.updateStatusAndNotifySubscribers name err).invalidators = j.invalidators := rfl

@[simp] theorem updateStatusAndNotifySubscribers_cancelFunc (j : Job) (name : JobStatusName)
    (err : Option JobError) :
    (j.updateStatusAndNotifySubscribers name err).cancelFunc = j.cancelFunc := rfl

@[simp] theorem updateStatusOffset_status (j : Job) (o : ℕ) :
    (j.updateStatusOffset o).status = { j.status with offset := o } := rfl

@[simp] theorem updateStatusOffset_phase (j : Job) (o : ℕ) : (j.updateStatusOffset o).phase = j.phase :=
  rfl

@[simp] theorem updateStatusOffset_invalidators (j : Job) (o : ℕ) :
    (j.updateStatusOffset o).invalidators = j.invalidators := rfl

@[simp] theorem updateStatusOffset_cancelFunc (j : Job) (o : ℕ) :
    (j.updateStatusOffset o).cancelFunc = j.cancelFunc := rfl

@[simp] theorem invalidateRest_status (j : Job) :
    j.invalidateRest.status = { j.status with name := .invalid } := rfl

@[simp] theorem invalidateRest_phase (j : Job) : j.invalidateRest.phase = j.phase := rfl

@[simp] theorem invalidateRest_invalidators (j : Job) :
    j.invalidateRest.invalidators = j.invalidators := rfl

@[simp] theorem invalidateRest_cancelFunc (j : Job) : j.invalidateRest.cancelFunc = j.cancelFunc :=
  rfl

@[simp] theorem handleError_phase (j : Job) (err : JobError) : (j.handleError err).phase = j.phase := by
  unfold handleError
  split <;> rfl

@[simp] theorem handleError_offset (j : Job) (err : JobError) :
    (j.handleError err).status.offset = j.status.offset := by
  unfold handleError
  split <;> rfl

@[simp] theorem handleError_invalidators (j : Job) (err : JobError) :
    (j.handleError err).invalidators = j.invalidators := by
  unfold handleError
  split <;> rfl

@[simp] theorem handleError_cancelFunc (j : Job) (err : JobError) :
    (j.handleError err).cancelFunc = j.cancelFunc := by
  unfold handleError
  split <;> rfl

/-- The two names `handleError` can set. -/
theorem handleError_name (j : Job) (err : JobError) :
    (j.handleError err).status.name = .invalid ∨ (j.handleError err).status.name = .failed := by
  unfold handleError
  split
  · exact .inl rfl
  · exact .inr rfl

/-! ## What each step can do -/

section Inversion

variable (size sequentialReadSize : ℕ) (parallelRanges : Option (List (ℕ × ℕ))) {j j' : Job}

/-- `Download` subscribes the caller or not, on the job as it was or, the
first time, with its goroutine started. -/
theorem download_eq (j : Job) (offset : ℕ) (wait : Bool) :
    ∃ j₀, (j₀ = j ∨ j.status.name = .notStarted ∧ j₀ = { j with
        status := { j.status with name := .downloading }
        cancelFunc := true, ctxCanceled := false, phase := .creating }) ∧
      (j.download size offset wait = j₀ ∨ j.download size offset wait = j₀.subscribe offset) := by
  unfold download
  split
  · exact ⟨j, .inl rfl, .inl rfl⟩
  · split
    · exact ⟨j, .inl rfl, .inl rfl⟩
    · rename_i hname
      refine ⟨_, .inr ⟨hname, rfl⟩, ?_⟩
      split
      · exact .inr rfl
      · exact .inl rfl
    · exact ⟨j, .inl rfl, .inl rfl⟩
    · exact ⟨j, .inl rfl, .inl rfl⟩
    · split
      · exact ⟨j, .inl rfl, .inl rfl⟩
      · exact ⟨j, .inl rfl, .inr rfl⟩

/-- `Download` leaves a job past `Downloading` as it is. -/
theorem download_of_settled (hn : j.status.name ≠ .notStarted) (hd : j.status.name ≠ .downloading)
    (offset : ℕ) (wait : Bool) : j.download size offset wait = j := by
  unfold download
  split
  · rfl
  · split <;> first | rfl | contradiction

theorem invalidateResume_eq {waits : Bool} (h : j.invalidateResume waits = some j') :
    waits ∈ j.invalidators ∧ (waits = false ∨ j.phase = .done) ∧
      j' = { j with invalidators := j.invalidators.erase waits }.invalidateRest := by
  unfold invalidateResume at h
  split at h
  · rename_i hg
    exact ⟨hg.1, hg.2, (Option.some.inj h).symm⟩
  · nomatch h

/-- `createCacheFile` starts the loop, or the parallel download over the
driver's ranges, or fails. -/
theorem asyncCreate_eq {ok : Bool} (h : j.asyncCreate parallelRanges ok = some j') :
    j.phase = .creating ∧
      ((parallelRanges = none ∧ j' = { j with phase := .looping 0 none }) ∨
        (∃ ranges, parallelRanges = some ranges ∧ j' = { j with phase := .parallel ranges ∅ none }) ∨
        j' = { j.handleError .other with phase := .cleaning }) := by
  unfold asyncCreate at h
  split at h
  · rename_i hp
    refine ⟨hp, ?_⟩
    cases ok
    · exact .inr (.inr (Option.some.inj h).symm)
    · cases hr : parallelRanges with
      | none =>
        rw [hr] at h
        exact .inl ⟨rfl, (Option.some.inj h).symm⟩
      | some ranges =>
        rw [hr] at h
        exact .inr (.inl ⟨ranges, rfl, (Option.some.inj h).symm⟩)
  · nomatch h

/-- A round of the loop runs at a position below the size. It writes
a piece and moves the offset forward, or it ends the loop with
`Invalid` or an error. -/
theorem asyncChunk_eq {outcome : ChunkOutcome}
    (h : j.asyncChunk size sequentialReadSize outcome = some j') :
    ∃ start lim, j.phase = .looping start lim ∧ start < size ∧
      ((outcome = .written ∧ ∃ start' next, start ≤ start' ∧
          j' = { j.updateStatusOffset start' with phase := .looping start' next }) ∨
        (outcome = .entryGone ∧ j' = { j.updateStatusAndNotifySubscribers .invalid
          (some .entryNotExist) with phase := .closing }) ∨
        (∃ err, j' = { j.handleError err with phase := .closing })) := by
  unfold asyncChunk at h
  split at h
  · rename_i start lim hp
    split at h
    · rename_i hlt
      refine ⟨start, lim, hp, hlt, ?_⟩
      cases outcome with
      | written => exact .inl ⟨rfl, _, _, Nat.le_add_right _ _, (Option.some.inj h).symm⟩
      | entryGone => exact .inr (.inl ⟨rfl, (Option.some.inj h).symm⟩)
      | updateFailed => exact .inr (.inr ⟨_, (Option.some.inj h).symm⟩)
      | readFailed canceled =>
        simp only at h
        split at h
        · nomatch h
        · exact .inr (.inr ⟨_, (Option.some.inj h).symm⟩)
    · nomatch h
  · nomatch h

/-- `Truncate` and `validateCRC` complete the download or end it with an
error. -/
theorem verifyAndComplete_eq {outcome : VerifyOutcome} (h : j.verifyAndComplete outcome = some j') :
    (outcome = .ok ∧ j' = { j.updateStatusAndNotifySubscribers .completed none with phase := .closing }) ∨
      (∃ err, j' = { j.handleError err with phase := .closing }) := by
  unfold verifyAndComplete at h
  cases outcome with
  | ok => exact .inl ⟨rfl, (Option.some.inj h).symm⟩
  | truncateFailed => exact .inr ⟨_, (Option.some.inj h).symm⟩
  | crcFailed canceled =>
    simp only at h
    split at h
    · nomatch h
    · exact .inr ⟨_, (Option.some.inj h).symm⟩

/-- The verification runs once the loop reached the size, or after the
parallel download; it completes the download or ends it with an error. -/
theorem asyncVerify_eq {outcome : VerifyOutcome} (h : j.asyncVerify size outcome = some j') :
    ((∃ start lim, j.phase = .looping start lim ∧ size ≤ start) ∨ j.phase = .parallelDone) ∧
      ((outcome = .ok ∧
          j' = { j.updateStatusAndNotifySubscribers .completed none with phase := .closing }) ∨
        (∃ err, j' = { j.handleError err with phase := .closing })) := by
  unfold asyncVerify at h
  split at h
  · rename_i start lim hp
    split at h
    · exact ⟨.inl ⟨start, lim, hp, ‹_›⟩, verifyAndComplete_eq h⟩
    · nomatch h
  · exact ⟨.inr ‹_›, verifyAndComplete_eq h⟩
  · nomatch h

/-- A goroutine of the parallel download is done with a range: the job, or
its offset moved by `updateStatusOffset`, in the parallel phase with the
range no longer to report; the tracking of the range map is kept. -/
theorem asyncRange_eq {i : ℕ} {outcome : ChunkOutcome} (h : j.asyncRange i outcome = some j') :
    ∃ (pending : List (ℕ × ℕ)) (m : AList (fun _ : ℕ => ℕ)) (failed : Option JobError) (j₁ : Job)
      (pending' : List (ℕ × ℕ)) (m' : AList (fun _ : ℕ => ℕ)) (failed' : Option JobError),
      j.phase = .parallel pending m failed ∧
      (j₁ = j ∨ ∃ o, j₁ = j.updateStatusOffset o) ∧
      j' = { j₁ with phase := .parallel pending' m' failed' } ∧
      (ParallelTracks j.status.offset pending m →
        ParallelTracks j₁.status.offset pending' m' ∧ j.status.offset ≤ j₁.status.offset) := by
  unfold asyncRange at h
  split at h
  · rename_i pending m failed hp
    split at h
    · rename_i s e hi
      -- a range merged, with the offset kept or moved to the joined run's end
      have hkeep : ParallelTracks j.status.offset pending m →
          ParallelTracks j.status.offset (pending.eraseIdx i) (mergeRange m s e).1 ∧
            j.status.offset ≤ j.status.offset := fun ht => ht.report hi (.inl rfl)
      cases outcome with
      | written =>
        dsimp only at h
        split at h
        · rename_i h0
          refine ⟨_, _, _, _, _, _, _, hp, .inr ⟨_, rfl⟩, (Option.some.inj h).symm, fun ht => ?_⟩
          exact ht.report hi (.inr ⟨h0, rfl⟩)
        · exact ⟨_, _, _, _, _, _, _, hp, .inl rfl, (Option.some.inj h).symm, hkeep⟩
      | entryGone =>
        dsimp only at h
        split at h
        · exact ⟨_, _, _, _, _, _, _, hp, .inl rfl, (Option.some.inj h).symm, hkeep⟩
        · nomatch h
      | updateFailed =>
        dsimp only at h
        split at h
        · exact ⟨_, _, _, _, _, _, _, hp, .inl rfl, (Option.some.inj h).symm, hkeep⟩
        · nomatch h
      | readFailed canceled =>
        dsimp only at h
        split at h
        · nomatch h
        · exact ⟨_, _, _, _, _, _, _, hp, .inl rfl, (Option.some.inj h).symm,
            fun ht => ⟨ht.drop i, le_rfl⟩⟩
    · nomatch h
  · nomatch h

/-- The parallel download ends with every range reported and no error, or
`Invalid` for a gone file-info entry, or through `handleError`. -/
theorem asyncParallelEnd_eq {joined : Bool} (h : j.asyncParallelEnd joined = some j') :
    (∃ pending m failed, j.phase = .parallel pending m failed) ∧
      (j' = { j with phase := .parallelDone } ∨
        j' = { j.updateStatusAndNotifySubscribers .invalid (some .entryNotExist) with phase := .closing } ∨
        ∃ err, j' = { j.handleError err with phase := .closing }) := by
  unfold asyncParallelEnd at h
  split at h
  · rename_i pending m failed hp
    refine ⟨⟨pending, m, failed, hp⟩, ?_⟩
    split at h
    · nomatch h
    · split at h
      · exact .inr (.inl (Option.some.inj h).symm)
      · exact .inr (.inr ⟨_, (Option.some.inj h).symm⟩)
      · split at h
        · exact .inr (.inr ⟨_, (Option.some.inj h).symm⟩)
        · split at h
          · exact .inl (Option.some.inj h).symm
          · nomatch h
  · nomatch h

theorem asyncClose_eq {ok : Bool} (h : j.asyncClose ok = some j') :
    j.phase = .closing ∧
      (j' = { j with phase := .cleaning } ∨ j' = { j.handleError .other with phase := .cleaning }) := by
  unfold asyncClose at h
  split at h
  · rename_i hp
    refine ⟨hp, ?_⟩
    cases ok
    · exact .inr (Option.some.inj h).symm
    · exact .inl (Option.some.inj h).symm
  · nomatch h

theorem asyncCleanup_eq (h : j.asyncCleanup = some j') :
    j.phase = .cleaning ∧ j' = { j with phase := .done, cancelFunc := false, ctxCanceled := true } := by
  unfold asyncCleanup at h
  split at h
  · exact ⟨‹_›, (Option.some.inj h).symm⟩
  · nomatch h

end Inversion

/-! ## The status, the phase and the offset -/

/-- The phases in which the goroutine runs its download or is about to,
with its context live. -/
def running : AsyncPhase → Bool
  | .creating | .looping _ _ | .parallel _ _ _ | .parallelDone => true
  | _ => false

/-- What every reachable job keeps of its status and its goroutine. -/
structure JobInv (j : Job) : Prop where
  /-- `NotStarted` only before the first `Download`. -/
  notStarted : j.status.name = .notStarted → j.phase = .unstarted
  /-- `Downloading` only while the goroutine runs. -/
  downloading : j.status.name = .downloading → running j.phase
  /-- While it runs its context can be cancelled, and the status is
  `Downloading`, or `Invalid` with an `Invalidate` waiting for it. -/
  running_status : running j.phase → j.cancelFunc = true ∧
    (j.status.name = .downloading ∨ j.status.name = .invalid ∧ true ∈ j.invalidators)
  /-- Every `Invalidate` between its two steps cancelled a download. -/
  waits : false ∉ j.invalidators
  offset_zero : j.phase = .unstarted ∨ j.phase = .creating → j.status.offset = 0
  offset_le : ∀ start lim, j.phase = .looping start lim → j.status.offset ≤ start
  /-- On the parallel path the range map tracks the ranges reported, and
  the offset stays below their finished prefix. -/
  parallel_tracks : ∀ pending m failed, j.phase = .parallel pending m failed →
    ParallelTracks j.status.offset pending m

theorem jobInv_init : JobInv init :=
  ⟨fun _ => rfl, nofun, fun h => absurd h (by decide), List.not_mem_nil, fun _ => rfl,
    fun _ _ h => (nomatch h), fun _ _ _ h => (nomatch h)⟩

/-- The invariant reads the status, the phase, `cancelFunc` and the
waiting `Invalidate`s only. -/
theorem JobInv.congr {j j' : Job} (h : JobInv j) (hs : j'.status = j.status)
    (hp : j'.phase = j.phase) (hc : j'.cancelFunc = j.cancelFunc)
    (hv : j'.invalidators = j.invalidators) : JobInv j' :=
  ⟨by simpa [hs, hp] using h.notStarted, by simpa [hs, hp] using h.downloading,
    by simpa [hs, hp, hc, hv] using h.running_status, by simpa [hv] using h.waits,
    by simpa [hs, hp] using h.offset_zero, by simpa [hs, hp] using h.offset_le,
    by simpa [hs, hp] using h.parallel_tracks⟩

/-- Past the download the status is no longer `NotStarted` or
`Downloading`. -/
theorem JobInv.settled {j : Job} (h : JobInv j)
    (hp : j.phase = .closing ∨ j.phase = .cleaning ∨ j.phase = .done) :
    j.status.name ≠ .notStarted ∧ j.status.name ≠ .downloading := by
  constructor
  · intro hn
    have := h.notStarted hn
    rcases hp with hp | hp | hp <;> rw [hp] at this <;> cases this
  · intro hd
    have := h.downloading hd
    rcases hp with hp | hp | hp <;> rw [hp] at this <;> cases this

/-- A job whose goroutine is past its download keeps the invariant as
long as its status is settled and every waiting `Invalidate` cancelled. -/
theorem JobInv.of_past {j : Job} (hn : j.status.name ≠ .notStarted)
    (hd : j.status.name ≠ .downloading)
    (hp : j.phase = .closing ∨ j.phase = .cleaning ∨ j.phase = .done)
    (hw : false ∉ j.invalidators) : JobInv j := by
  refine ⟨fun h => absurd h hn, fun h => absurd h hd, fun hr => ?_, hw, fun hz => ?_,
    fun start lim hl => ?_, fun pending m failed hl => ?_⟩
  · rcases hp with hp | hp | hp <;> rw [hp] at hr <;> cases hr
  · rcases hz with hz | hz <;> rcases hp with hp | hp | hp <;> rw [hp] at hz <;> cases hz
  · rcases hp with hp | hp | hp <;> rw [hp] at hl <;> cases hl
  · rcases hp with hp | hp | hp <;> rw [hp] at hl <;> cases hl

/-- A step that keeps the goroutine running, and the status's name,
`cancelFunc` and the waiting `Invalidate`s as they were, keeps the
invariant once the offset facts of its new phase hold. -/
theorem JobInv.running_step {j j' : Job} (hi : JobInv j) (hr : running j.phase)
    (hr' : running j'.phase) (hn : j'.status.name = j.status.name)
    (hc : j'.cancelFunc = j.cancelFunc) (hv : j'.invalidators = j.invalidators)
    (hz : j'.phase = .unstarted ∨ j'.phase = .creating → j'.status.offset = 0)
    (hl : ∀ start lim, j'.phase = .looping start lim → j'.status.offset ≤ start)
    (ht : ∀ pending m failed, j'.phase = .parallel pending m failed →
      ParallelTracks j'.status.offset pending m) : JobInv j' where
  notStarted h := by
    have := hi.notStarted (hn ▸ h)
    rw [this] at hr
    cases hr
  downloading _ := hr'
  running_status _ := by
    rw [hn, hc, hv]
    exact hi.running_status hr
  waits := hv ▸ hi.waits
  offset_zero := hz
  offset_le := hl
  parallel_tracks := ht

theorem handleError_settled (j : Job) (err : JobError) :
    (j.handleError err).status.name ≠ .notStarted ∧
      (j.handleError err).status.name ≠ .downloading := by
  rcases handleError_name j err with h | h <;> rw [h] <;> decide

/-- A job the goroutine leaves through `handleError` keeps the invariant. -/
theorem JobInv.handleError {j : Job} (hi : JobInv j) (err : JobError) {phase : AsyncPhase}
    (hp : phase = .closing ∨ phase = .cleaning ∨ phase = .done) :
    JobInv { j.handleError err with phase := phase } :=
  JobInv.of_past (handleError_settled j err).1 (handleError_settled j err).2 hp
    (by simpa using hi.waits)

/-- A range a goroutine is done with leaves the status's name,
`cancelFunc` and the waiting `Invalidate`s as they were. -/
theorem asyncRange_fields {j j₁ : Job} (hj₁ : j₁ = j ∨ ∃ o, j₁ = j.updateStatusOffset o) :
    j₁.status.name = j.status.name ∧ j₁.cancelFunc = j.cancelFunc ∧
      j₁.invalidators = j.invalidators := by
  rcases hj₁ with rfl | ⟨o, rfl⟩ <;> exact ⟨rfl, rfl, rfl⟩

section Steps

variable (size sequentialReadSize : ℕ) (parallelRanges : Option (List (ℕ × ℕ))) {j j' : Job}

/-- **`JobInv` is kept by every step**, when the ranges of a parallel
download tile the object. -/
theorem jobInv_step (hranges : ∀ ranges, parallelRanges = some ranges → Tiles ranges 0 size)
    {a : JobAction} (hi : JobInv j)
    (hs : j.step size sequentialReadSize parallelRanges a = some j') : JobInv j' := by
  cases a with
  | download offset wait =>
    obtain ⟨j₀, hj₀, hd⟩ := download_eq size j offset wait
    have h₀ : JobInv j₀ := by
      rcases hj₀ with rfl | ⟨hname, rfl⟩
      · exact hi
      · -- the goroutine starts, at offset `0`
        have hz := hi.offset_zero (.inl (hi.notStarted hname))
        exact ⟨nofun, fun _ => rfl, fun _ => ⟨rfl, .inl rfl⟩, hi.waits,
          fun _ => hz, fun _ _ h => (nomatch h), fun _ _ _ h => (nomatch h)⟩
    obtain rfl := Option.some.inj hs
    rcases hd with hd | hd <;> rw [hd]
    · exact h₀
    · exact h₀.congr rfl rfl rfl rfl
  | getStatus =>
    obtain rfl := Option.some.inj hs
    exact hi
  | invalidate =>
    obtain rfl := Option.some.inj hs
    unfold invalidate
    split
    · -- the first half: `Invalid`, and the running download is cancelled
      rename_i hd
      have hc := (hi.running_status (hi.downloading hd)).1
      refine ⟨nofun, nofun, fun _ => ⟨hc, .inr ⟨rfl, ?_⟩⟩, ?_,
        hi.offset_zero, hi.offset_le, hi.parallel_tracks⟩
      · simp [hc]
      · simpa [hc] using hi.waits
    · rename_i hd
      refine ⟨nofun, nofun, fun hr => ?_, hi.waits, hi.offset_zero,
        hi.offset_le, hi.parallel_tracks⟩
      obtain ⟨hc, hn⟩ := hi.running_status hr
      exact ⟨hc, .inr ⟨rfl, (hn.resolve_left hd).2⟩⟩
  | invalidateResume waits =>
    obtain ⟨hmem, hwait, rfl⟩ := invalidateResume_eq hs
    -- only a cancelling `Invalidate` waits, and it resumes once `doneCh` is closed
    have hdone : j.phase = .done := by
      cases waits
      · exact absurd hmem hi.waits
      · simpa using hwait
    exact JobInv.of_past (nofun) (nofun) (.inr (.inr hdone))
      fun h => hi.waits (List.mem_of_mem_erase h)
  | asyncCreate ok =>
    obtain ⟨hp, ⟨-, rfl⟩ | ⟨ranges, hr, rfl⟩ | rfl⟩ := asyncCreate_eq parallelRanges hs
    · -- the loop starts at `0`
      have hrun : running j.phase := by rw [hp]; rfl
      refine hi.running_step hrun rfl rfl rfl rfl nofun (fun _ _ h => ?_) (fun _ _ _ h => nomatch h)
      cases h
      exact (hi.offset_zero (.inr hp)).le
    · -- the parallel download starts, with nothing reported
      have hrun : running j.phase := by rw [hp]; rfl
      refine hi.running_step hrun rfl rfl rfl rfl nofun (fun _ _ h => nomatch h) (fun _ _ _ h => ?_)
      cases h
      show ParallelTracks j.status.offset _ _
      rw [hi.offset_zero (.inr hp)]
      exact parallelTracks_start (hranges ranges hr)
    · exact hi.handleError _ (.inr (.inl rfl))
  | asyncChunk outcome =>
    obtain ⟨start, lim, hp, -, ⟨-, start', next, hle, rfl⟩ | ⟨-, rfl⟩ | ⟨err, rfl⟩⟩ :=
      asyncChunk_eq size sequentialReadSize hs
    · -- a piece is written: the loop and the offset move to `start'`
      have hrun : running j.phase := by rw [hp]; rfl
      refine hi.running_step hrun rfl rfl rfl rfl nofun (fun _ _ h => ?_) (fun _ _ _ h => nomatch h)
      cases h
      exact le_rfl
    · exact JobInv.of_past (nofun) (nofun) (.inl rfl)
        (by simpa using hi.waits)
    · exact hi.handleError _ (.inl rfl)
  | asyncRange i outcome =>
    obtain ⟨pending, m, failed, j₁, pending', m', failed', hp, hj₁, rfl, htr⟩ := asyncRange_eq hs
    have hrun : running j.phase := by rw [hp]; rfl
    obtain ⟨hn, hc, hv⟩ := asyncRange_fields hj₁
    refine hi.running_step hrun rfl hn hc hv nofun (fun _ _ h => nomatch h) (fun _ _ _ h => ?_)
    cases h
    exact (htr (hi.parallel_tracks _ _ _ hp)).1
  | asyncParallelEnd joined =>
    obtain ⟨⟨pending, m, failed, hp⟩, rfl | rfl | ⟨err, rfl⟩⟩ := asyncParallelEnd_eq hs
    · have hrun : running j.phase := by rw [hp]; rfl
      exact hi.running_step hrun rfl rfl rfl rfl nofun (fun _ _ h => nomatch h)
        (fun _ _ _ h => nomatch h)
    · exact JobInv.of_past (nofun) (nofun) (.inl rfl) (by simpa using hi.waits)
    · exact hi.handleError _ (.inl rfl)
  | asyncVerify outcome =>
    obtain ⟨-, ⟨-, rfl⟩ | ⟨err, rfl⟩⟩ := asyncVerify_eq size hs
    · exact JobInv.of_past (nofun) (nofun) (.inl rfl)
        (by simpa using hi.waits)
    · exact hi.handleError _ (.inl rfl)
  | asyncClose ok =>
    obtain ⟨hp, rfl | rfl⟩ := asyncClose_eq hs
    · have hset := hi.settled (.inl hp)
      exact JobInv.of_past hset.1 hset.2 (.inr (.inl rfl)) hi.waits
    · exact hi.handleError _ (.inr (.inl rfl))
  | asyncCleanup =>
    obtain ⟨hp, rfl⟩ := asyncCleanup_eq hs
    have hset := hi.settled (.inr (.inl hp))
    exact JobInv.of_past hset.1 hset.2 (.inr (.inr rfl)) hi.waits

/-- The offset moves only in the loop, to at least the loop's position,
and on the parallel path, where the range map's tracking bounds it from
below. -/
theorem step_offset {a : JobAction} (hs : j.step size sequentialReadSize parallelRanges a = some j') :
    j'.status.offset = j.status.offset ∨
      (∃ start lim, j.phase = .looping start lim ∧ start ≤ j'.status.offset) ∨
      ∃ pending m failed, j.phase = .parallel pending m failed ∧
        (ParallelTracks j.status.offset pending m → j.status.offset ≤ j'.status.offset) := by
  cases a with
  | download offset wait =>
    obtain ⟨j₀, hj₀, hd⟩ := download_eq size j offset wait
    obtain rfl := Option.some.inj hs
    have h₀ : j₀.status.offset = j.status.offset := by
      rcases hj₀ with rfl | ⟨-, rfl⟩ <;> rfl
    left
    rcases hd with hd | hd <;> rw [hd]
    · exact h₀
    · exact h₀
  | getStatus =>
    obtain rfl := Option.some.inj hs
    exact .inl rfl
  | invalidate =>
    obtain rfl := Option.some.inj hs
    left
    unfold invalidate
    split <;> rfl
  | invalidateResume waits =>
    obtain ⟨-, -, rfl⟩ := invalidateResume_eq hs
    exact .inl rfl
  | asyncCreate ok =>
    obtain ⟨-, ⟨-, rfl⟩ | ⟨-, -, rfl⟩ | rfl⟩ := asyncCreate_eq parallelRanges hs
    · exact .inl rfl
    · exact .inl rfl
    · exact .inl (handleError_offset j _)
  | asyncChunk outcome =>
    obtain ⟨start, lim, hp, -, ⟨-, start', next, hle, rfl⟩ | ⟨-, rfl⟩ | ⟨err, rfl⟩⟩ :=
      asyncChunk_eq size sequentialReadSize hs
    · exact .inr (.inl ⟨start, lim, hp, hle⟩)
    · exact .inl rfl
    · exact .inl (handleError_offset j _)
  | asyncRange i outcome =>
    obtain ⟨pending, m, failed, j₁, pending', m', failed', hp, -, rfl, htr⟩ := asyncRange_eq hs
    exact .inr (.inr ⟨pending, m, failed, hp, fun ht => (htr ht).2⟩)
  | asyncParallelEnd joined =>
    obtain ⟨-, rfl | rfl | ⟨err, rfl⟩⟩ := asyncParallelEnd_eq hs
    · exact .inl rfl
    · exact .inl rfl
    · exact .inl (handleError_offset j _)
  | asyncVerify outcome =>
    obtain ⟨-, ⟨-, rfl⟩ | ⟨err, rfl⟩⟩ := asyncVerify_eq size hs
    · exact .inl rfl
    · exact .inl (handleError_offset j _)
  | asyncClose ok =>
    obtain ⟨-, rfl | rfl⟩ := asyncClose_eq hs
    · exact .inl rfl
    · exact .inl (handleError_offset j _)
  | asyncCleanup =>
    obtain ⟨-, rfl⟩ := asyncCleanup_eq hs
    exact .inl rfl

/-- **The offset never decreases.** -/
theorem offset_le_step {a : JobAction} (hi : JobInv j)
    (hs : j.step size sequentialReadSize parallelRanges a = some j') :
    j.status.offset ≤ j'.status.offset := by
  rcases step_offset size sequentialReadSize parallelRanges hs with
    h | ⟨start, lim, hp, hle⟩ | ⟨pending, m, failed, hp, hle⟩
  · exact h.ge
  · exact (hi.offset_le start lim hp).trans hle
  · exact hle (hi.parallel_tracks _ _ _ hp)

/-- **A status past `Downloading` stays past it**: only the first
`Download` sets `Downloading`. -/
theorem settled_step {a : JobAction} (hn : j.status.name ≠ .notStarted)
    (hd : j.status.name ≠ .downloading)
    (hs : j.step size sequentialReadSize parallelRanges a = some j') :
    j'.status.name ≠ .notStarted ∧ j'.status.name ≠ .downloading := by
  cases a with
  | download offset wait =>
    obtain rfl := Option.some.inj hs
    rw [download_of_settled size hn hd]
    exact ⟨hn, hd⟩
  | getStatus =>
    obtain rfl := Option.some.inj hs
    exact ⟨hn, hd⟩
  | invalidate =>
    obtain rfl := Option.some.inj hs
    unfold invalidate
    split <;> exact ⟨nofun, nofun⟩
  | invalidateResume waits =>
    obtain ⟨-, -, rfl⟩ := invalidateResume_eq hs
    exact ⟨nofun, nofun⟩
  | asyncCreate ok =>
    obtain ⟨-, ⟨-, rfl⟩ | ⟨-, -, rfl⟩ | rfl⟩ := asyncCreate_eq parallelRanges hs
    · exact ⟨hn, hd⟩
    · exact ⟨hn, hd⟩
    · exact handleError_settled j _
  | asyncChunk outcome =>
    obtain ⟨-, -, -, -, ⟨-, start', next, -, rfl⟩ | ⟨-, rfl⟩ | ⟨err, rfl⟩⟩ :=
      asyncChunk_eq size sequentialReadSize hs
    · exact ⟨hn, hd⟩
    · exact ⟨nofun, nofun⟩
    · exact handleError_settled j _
  | asyncRange i outcome =>
    obtain ⟨-, -, -, j₁, -, -, -, -, hj₁, rfl, -⟩ := asyncRange_eq hs
    have hname := (asyncRange_fields hj₁).1
    exact ⟨fun h => hn (hname ▸ h), fun h => hd (hname ▸ h)⟩
  | asyncParallelEnd joined =>
    obtain ⟨-, rfl | rfl | ⟨err, rfl⟩⟩ := asyncParallelEnd_eq hs
    · exact ⟨hn, hd⟩
    · exact ⟨nofun, nofun⟩
    · exact handleError_settled j _
  | asyncVerify outcome =>
    obtain ⟨-, ⟨-, rfl⟩ | ⟨err, rfl⟩⟩ := asyncVerify_eq size hs
    · exact ⟨nofun, nofun⟩
    · exact handleError_settled j _
  | asyncClose ok =>
    obtain ⟨-, rfl | rfl⟩ := asyncClose_eq hs
    · exact ⟨hn, hd⟩
    · exact handleError_settled j _
  | asyncCleanup =>
    obtain ⟨-, rfl⟩ := asyncCleanup_eq hs
    exact ⟨hn, hd⟩

/-- **From `Invalid`**: `Completed` comes only from the verification step
of a download whose cancelling `Invalidate` still waits; with no
goroutine left, or none started, `Invalid` stays. -/
theorem invalid_step {a : JobAction} (hi : JobInv j) (hn : j.status.name = .invalid)
    (hs : j.step size sequentialReadSize parallelRanges a = some j') :
    (j'.status.name = .completed → a = .asyncVerify .ok ∧ true ∈ j'.invalidators) ∧
      (j.phase = .unstarted ∨ j.phase = .done → j'.status.name = .invalid) := by
  -- the steps that leave the name `Invalid`, or set `Invalid` or `Failed`
  have hfail : ∀ j'' : Job, j''.status.name = .invalid ∨ j''.status.name = .failed →
      j''.status.name ≠ .completed := by
    rintro j'' (h | h) <;> rw [h] <;> decide
  have hpast : j.status.name ≠ .notStarted ∧ j.status.name ≠ .downloading := by
    rw [hn]
    exact ⟨nofun, nofun⟩
  -- a step of the goroutine's download runs on a started goroutine
  have hlive : ∀ p : AsyncPhase, running p = true → ¬ (p = .unstarted ∨ p = .done) := by
    rintro p hp (rfl | rfl) <;> cases hp
  cases a with
  | download offset wait =>
    obtain rfl := Option.some.inj hs
    rw [download_of_settled size hpast.1 hpast.2]
    exact ⟨fun h => absurd h (hfail j (.inl hn)), fun _ => hn⟩
  | getStatus =>
    obtain rfl := Option.some.inj hs
    exact ⟨fun h => absurd h (hfail j (.inl hn)), fun _ => hn⟩
  | invalidate =>
    obtain rfl := Option.some.inj hs
    unfold invalidate
    split <;> exact ⟨nofun, fun _ => rfl⟩
  | invalidateResume waits =>
    obtain ⟨-, -, rfl⟩ := invalidateResume_eq hs
    exact ⟨nofun, fun _ => rfl⟩
  | asyncCreate ok =>
    obtain ⟨hp, ⟨-, rfl⟩ | ⟨-, -, rfl⟩ | rfl⟩ := asyncCreate_eq parallelRanges hs <;>
      refine ⟨?_, fun h => absurd h (hlive _ (by rw [hp]; rfl))⟩
    · exact fun h => absurd h (hfail j (.inl hn))
    · exact fun h => absurd h (hfail j (.inl hn))
    · exact fun h => absurd h (hfail _ (handleError_name j _))
  | asyncChunk outcome =>
    obtain ⟨start, lim, hp, -, ⟨-, start', next, -, rfl⟩ | ⟨-, rfl⟩ | ⟨err, rfl⟩⟩ :=
      asyncChunk_eq size sequentialReadSize hs <;>
      refine ⟨?_, fun h => absurd h (hlive _ (by rw [hp]; rfl))⟩
    · exact fun h => absurd h (hfail j (.inl hn))
    · exact nofun
    · exact fun h => absurd h (hfail _ (handleError_name j _))
  | asyncRange i outcome =>
    obtain ⟨_, _, _, j₁, _, _, _, hp, hj₁, rfl, -⟩ := asyncRange_eq hs
    have hname : j₁.status.name = .invalid := (asyncRange_fields hj₁).1.trans hn
    exact ⟨fun h => absurd h (hfail j₁ (.inl hname)), fun h => absurd h (hlive _ (by rw [hp]; rfl))⟩
  | asyncParallelEnd joined =>
    obtain ⟨⟨_, _, _, hp⟩, rfl | rfl | ⟨err, rfl⟩⟩ := asyncParallelEnd_eq hs <;>
      refine ⟨?_, fun h => absurd h (hlive _ (by rw [hp]; rfl))⟩
    · exact fun h => absurd h (hfail j (.inl hn))
    · exact nofun
    · exact fun h => absurd h (hfail _ (handleError_name j _))
  | asyncVerify outcome =>
    obtain ⟨hph, ⟨rfl, rfl⟩ | ⟨err, rfl⟩⟩ := asyncVerify_eq size hs <;>
      have hr : running j.phase := by rcases hph with ⟨_, _, hp, -⟩ | hp <;> rw [hp] <;> rfl
    · -- the goroutine still runs: the `Invalidate` that set `Invalid` waits for it
      refine ⟨?_, fun h => absurd h (hlive _ hr)⟩
      obtain ⟨-, hd | ⟨-, hw⟩⟩ := hi.running_status hr
      · rw [hn] at hd
        cases hd
      · exact fun _ => ⟨rfl, hw⟩
    · exact ⟨fun h => absurd h (hfail _ (handleError_name j _)), fun h => absurd h (hlive _ hr)⟩
  | asyncClose ok =>
    obtain ⟨hp, rfl | rfl⟩ := asyncClose_eq hs <;>
      refine ⟨?_, fun h => by rcases h with h | h <;> rw [hp] at h <;> cases h⟩
    · exact fun h => absurd h (hfail j (.inl hn))
    · exact fun h => absurd h (hfail _ (handleError_name j _))
  | asyncCleanup =>
    obtain ⟨hp, rfl⟩ := asyncCleanup_eq hs
    exact ⟨fun h => absurd h (hfail j (.inl hn)), fun h => by
      rcases h with h | h <;> rw [hp] at h <;> cases h⟩

end Steps

end Job

/-! ## Subscribers and notifications -/

/-- What the subscriber lists keep: every subscription has its own id,
below `nextSubscriber`; a subscriber still waiting holds its
subscription; every notification went to a subscription whose test the
status passed; and no id is both waiting and told, or told twice. -/
structure SubInv (subscribers : List (ℕ × ℕ)) (nextSubscriber : ℕ)
    (subscribed : List (ℕ × ℕ)) (notified : List (ℕ × JobStatus)) : Prop where
  lt_next : ∀ p ∈ subscribed, p.1 < nextSubscriber
  subscribed_nodup : (subscribed.map Prod.fst).Nodup
  waiting : ∀ p ∈ subscribers, p ∈ subscribed
  sent : ∀ p ∈ notified, ∃ off, (p.1, off) ∈ subscribed ∧ notifiable p.2 off = true
  nodup : (subscribers.map Prod.fst ++ notified.map Prod.fst).Nodup

/-- Splitting a list by a test and putting the two parts back around
another list keeps the elements. -/
theorem filter_split_perm {α β : Type*} (p : α → Bool) (f : α → β) (l : List α) (n : List β) :
    List.Perm ((l.filter fun a => !p a).map f ++ (n ++ (l.filter p).map f)) (l.map f ++ n) := by
  have hsplit : List.Perm ((l.filter fun a => !p a).map f ++ (l.filter p).map f) (l.map f) := by
    rw [← List.map_append]
    exact (List.perm_append_comm.trans (List.filter_append_perm p l)).map f
  calc List.Perm ((l.filter fun a => !p a).map f ++ (n ++ (l.filter p).map f))
        ((l.filter fun a => !p a).map f ++ ((l.filter p).map f ++ n)) :=
          List.perm_append_comm.append_left _
    _ = ((l.filter fun a => !p a).map f ++ (l.filter p).map f) ++ n :=
          (List.append_assoc _ _ _).symm
    List.Perm _ (l.map f ++ n) := hsplit.append_right n

section SubInv

variable {subscribers subscribed : List (ℕ × ℕ)} {nextSubscriber : ℕ}
  {notified : List (ℕ × JobStatus)}

/-- A round of `notifySubscribers` tells each subscriber it removes, once. -/
theorem SubInv.notify (h : SubInv subscribers nextSubscriber subscribed notified)
    (status : JobStatus) :
    SubInv (notifyLoop status subscribers).1 nextSubscriber subscribed
      (notified ++ (notifyLoop status subscribers).2) := by
  rw [notifyLoop_fst, notifyLoop_snd]
  refine ⟨h.lt_next, h.subscribed_nodup, fun p hp => h.waiting p (List.mem_filter.1 hp).1,
    fun p hp => ?_, ?_⟩
  · rcases List.mem_append.1 hp with hp | hp
    · exact h.sent p hp
    · -- a new notification, to a subscriber whose test passed
      obtain ⟨s, hs, rfl⟩ := List.mem_map.1 hp
      obtain ⟨hsub, htest⟩ := List.mem_filter.1 hs
      exact ⟨s.2, h.waiting s hsub, htest⟩
  · -- the ids that stay and those told are the old waiting ids
    have hfst : (Prod.fst ∘ fun s : ℕ × ℕ => (s.1, status)) = Prod.fst := rfl
    rw [List.map_append, List.map_map, hfst]
    exact (filter_split_perm _ _ _ _).nodup_iff.2 h.nodup

/-- `subscribe` adds a subscription under a fresh id. -/
theorem SubInv.subscribe (h : SubInv subscribers nextSubscriber subscribed notified)
    (subscribedOffset : ℕ) :
    SubInv (subscribers ++ [(nextSubscriber, subscribedOffset)]) (nextSubscriber + 1)
      (subscribed ++ [(nextSubscriber, subscribedOffset)]) notified := by
  have hfresh : nextSubscriber ∉ subscribed.map Prod.fst := fun hm => by
    obtain ⟨p, hp, hid⟩ := List.mem_map.1 hm
    exact absurd (h.lt_next p hp) (by omega)
  -- every id waiting or told was subscribed, so is below `nextSubscriber`
  have hfresh' : nextSubscriber ∉ subscribers.map Prod.fst ++ notified.map Prod.fst := by
    intro hm
    rcases List.mem_append.1 hm with hm | hm <;> obtain ⟨p, hp, hid⟩ := List.mem_map.1 hm
    · exact hfresh (List.mem_map.2 ⟨p, h.waiting p hp, hid⟩)
    · obtain ⟨off, hoff, -⟩ := h.sent p hp
      exact hfresh (List.mem_map.2 ⟨_, hoff, hid⟩)
  refine ⟨fun p hp => ?_, ?_, fun p hp => ?_, fun p hp => ?_, ?_⟩
  · rcases List.mem_append.1 hp with hp | hp
    · exact Nat.lt_succ_of_lt (h.lt_next p hp)
    · rw [List.mem_singleton.1 hp]
      exact Nat.lt_succ_self _
  · rw [List.map_append, List.nodup_append_comm]
    exact List.nodup_cons.2 ⟨hfresh, h.subscribed_nodup⟩
  · rcases List.mem_append.1 hp with hp | hp
    · exact List.mem_append_left _ (h.waiting p hp)
    · exact List.mem_append_right _ hp
  · obtain ⟨off, hoff, htest⟩ := h.sent p hp
    exact ⟨off, List.mem_append_left _ hoff, htest⟩
  · rw [List.map_append, List.append_assoc, List.map_singleton, List.singleton_append,
      List.nodup_middle]
    exact List.nodup_cons.2 ⟨hfresh', h.nodup⟩

end SubInv

namespace Job

/-- The job's subscriber lists keep `SubInv`. -/
def SubsOk (j : Job) : Prop := SubInv j.subscribers j.nextSubscriber j.subscribed j.notified

theorem subsOk_init : init.SubsOk :=
  ⟨nofun, List.nodup_nil, nofun, nofun, List.nodup_nil⟩

theorem subsOk_handleError {j : Job} (h : j.SubsOk) (err : JobError) : (j.handleError err).SubsOk := by
  unfold handleError
  split <;> exact SubInv.notify h _

/-- **`SubInv` is kept by every step**: a step subscribes, notifies, or
leaves the lists alone. -/
theorem subsOk_step (size sequentialReadSize : ℕ) (parallelRanges : Option (List (ℕ × ℕ))) {j j' : Job}
    {a : JobAction} (h : j.SubsOk) (hs : j.step size sequentialReadSize parallelRanges a = some j') :
    j'.SubsOk := by
  cases a with
  | download offset wait =>
    obtain ⟨j₀, hj₀, hd⟩ := download_eq size j offset wait
    have h₀ : j₀.SubsOk := by
      rcases hj₀ with rfl | ⟨-, rfl⟩ <;> exact h
    obtain rfl := Option.some.inj hs
    rcases hd with hd | hd <;> rw [hd]
    · exact h₀
    · exact SubInv.subscribe h₀ offset
  | getStatus =>
    obtain rfl := Option.some.inj hs
    exact h
  | invalidate =>
    obtain rfl := Option.some.inj hs
    unfold invalidate
    split
    · exact h
    · exact SubInv.notify h _
  | invalidateResume waits =>
    obtain ⟨-, -, rfl⟩ := invalidateResume_eq hs
    exact SubInv.notify h _
  | asyncCreate ok =>
    obtain ⟨-, ⟨-, rfl⟩ | ⟨-, -, rfl⟩ | rfl⟩ := asyncCreate_eq parallelRanges hs
    · exact h
    · exact h
    · exact subsOk_handleError h _
  | asyncChunk outcome =>
    obtain ⟨-, -, -, -, ⟨-, start', next, -, rfl⟩ | ⟨-, rfl⟩ | ⟨err, rfl⟩⟩ :=
      asyncChunk_eq size sequentialReadSize hs
    · exact SubInv.notify h _
    · exact SubInv.notify h _
    · exact subsOk_handleError h _
  | asyncRange i outcome =>
    obtain ⟨-, -, -, j₁, -, -, -, -, hj₁, rfl, -⟩ := asyncRange_eq hs
    rcases hj₁ with rfl | ⟨o, rfl⟩
    · exact h
    · exact SubInv.notify h _
  | asyncParallelEnd joined =>
    obtain ⟨-, rfl | rfl | ⟨err, rfl⟩⟩ := asyncParallelEnd_eq hs
    · exact h
    · exact SubInv.notify h _
    · exact subsOk_handleError h _
  | asyncVerify outcome =>
    obtain ⟨-, ⟨-, rfl⟩ | ⟨err, rfl⟩⟩ := asyncVerify_eq size hs
    · exact SubInv.notify h _
    · exact subsOk_handleError h _
  | asyncClose ok =>
    obtain ⟨-, rfl | rfl⟩ := asyncClose_eq hs
    · exact h
    · exact subsOk_handleError h _
  | asyncCleanup =>
    obtain ⟨-, rfl⟩ := asyncCleanup_eq hs
    exact h

/-! ## Every run -/

section Runs

variable (size sequentialReadSize : ℕ) (parallelRanges : Option (List (ℕ × ℕ))) {j : Job}

theorem jobInv_of_reachable (hranges : ∀ ranges, parallelRanges = some ranges → Tiles ranges 0 size)
    (h : Reachable (step size sequentialReadSize parallelRanges) init j) : JobInv j :=
  h.invariant jobInv_init fun _ _ _ hi hs =>
    jobInv_step size sequentialReadSize parallelRanges hranges hi hs

theorem subsOk_of_reachable (h : Reachable (step size sequentialReadSize parallelRanges) init j) :
    j.SubsOk :=
  h.invariant subsOk_init fun _ _ _ hi hs => subsOk_step size sequentialReadSize parallelRanges hi hs

/-- **The job's contract**, on either path, for every step from every
reachable state, when the ranges of a parallel download tile the object
(as the driver's do, `reportedRanges_tiles`): the offset does not
decrease; every notification sent so far went to a subscription, once,
with a status that passed its test; a status past `Downloading` never
goes back; and from `Invalid` the next status is `Completed` only by the
verification step of a download whose cancelling `Invalidate` still
waits, and is `Invalid` again when the goroutine is done or was never
started. -/
theorem download_job_contract {j' : Job} {a : JobAction}
    (hranges : ∀ ranges, parallelRanges = some ranges → Tiles ranges 0 size)
    (hj : Reachable (step size sequentialReadSize parallelRanges) init j)
    (hs : j.step size sequentialReadSize parallelRanges a = some j') :
    j.status.offset ≤ j'.status.offset ∧
      ((∀ p ∈ j'.notified, ∃ off, (p.1, off) ∈ j'.subscribed ∧ notifiable p.2 off = true) ∧
        (j'.notified.map Prod.fst).Nodup ∧ (j'.subscribed.map Prod.fst).Nodup) ∧
      ((j.status.name ≠ .notStarted ∧ j.status.name ≠ .downloading →
          j'.status.name ≠ .notStarted ∧ j'.status.name ≠ .downloading) ∧
        (j.status.name = .invalid →
          (j'.status.name = .completed → a = .asyncVerify .ok ∧ true ∈ j'.invalidators) ∧
          (j.phase = .unstarted ∨ j.phase = .done → j'.status.name = .invalid))) := by
  have hi := jobInv_of_reachable size sequentialReadSize parallelRanges hranges hj
  have hsub : j'.SubsOk := subsOk_step size sequentialReadSize parallelRanges
    (subsOk_of_reachable size sequentialReadSize parallelRanges hj) hs
  exact ⟨offset_le_step size sequentialReadSize parallelRanges hi hs,
    ⟨hsub.sent, List.Nodup.of_append_right hsub.nodup, hsub.subscribed_nodup⟩,
    fun h => settled_step size sequentialReadSize parallelRanges h.1 h.2 hs,
    fun h => invalid_step size sequentialReadSize parallelRanges hi h hs⟩

end Runs

/-- An object of two bytes downloaded in parallel as two ranges of one
byte, the first `Download` waiting for both: the goroutine of the second
range reports first, and the report of the first joins the two into the
whole object, which moves the offset to its end. -/
theorem download_job_contract_parallel_reports :
    (∀ ranges, some [(0, 1), (1, 2)] = some ranges → Tiles ranges 0 2) ∧
      ∃ j j', Reachable (step 2 2 (some [(0, 1), (1, 2)])) init j ∧
        j.step 2 2 (some [(0, 1), (1, 2)]) (.asyncRange 0 .written) = some j' ∧
        (j.status.offset ≤ j'.status.offset ∧
          ((∀ p ∈ j'.notified, ∃ off, (p.1, off) ∈ j'.subscribed ∧ notifiable p.2 off = true) ∧
            (j'.notified.map Prod.fst).Nodup ∧ (j'.subscribed.map Prod.fst).Nodup) ∧
          ((j.status.name ≠ .notStarted ∧ j.status.name ≠ .downloading →
              j'.status.name ≠ .notStarted ∧ j'.status.name ≠ .downloading) ∧
            (j.status.name = .invalid →
              (j'.status.name = .completed →
                JobAction.asyncRange 0 .written = .asyncVerify .ok ∧ true ∈ j'.invalidators) ∧
              (j.phase = .unstarted ∨ j.phase = .done → j'.status.name = .invalid)))) := by
  have hranges : ∀ ranges, some [(0, 1), (1, 2)] = some ranges → Tiles ranges 0 2 := by
    rintro ranges ⟨⟩
    exact ⟨rfl, by decide, rfl, by decide, rfl⟩
  have hj : Reachable (step 2 2 (some [(0, 1), (1, 2)])) init _ :=
    ⟨[.download 2 true, .asyncCreate true, .asyncRange 1 .written], rfl⟩
  exact ⟨hranges, _, _, hj, rfl, download_job_contract 2 2 _ hranges hj rfl⟩

/-- An object of one byte, read one byte at a time: the first `Download`
starts the goroutine, which creates the file and writes its only piece;
then an `Invalidate` sets `Invalid` and cancels the download. -/
def invalidatedAfterLastChunk : List JobAction :=
  [.download 1 false, .asyncCreate true, .asyncChunk .written, .invalidate]

/-- The goroutine is past its last read, and `Truncate` and `validateCRC`
(off by default) do not look at the context: the download ends
`Completed` over the `Invalid` that `Invalidate` set. -/
theorem invalid_then_completed :
    ∃ j j', run (step 1 1 none) init invalidatedAfterLastChunk = some j ∧ j.status.name = .invalid ∧
      j.step 1 1 none (.asyncVerify .ok) = some j' ∧ j'.status.name = .completed :=
  ⟨_, _, rfl, rfl, rfl, rfl⟩

end Job

end Downloader

end GcsFuse
