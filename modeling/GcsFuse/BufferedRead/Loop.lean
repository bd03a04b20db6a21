import GcsFuse.BufferedRead.Custody
/-!
# The buffered reader — its functions keep the custody

One lemma for each function of the reader that touches the heap: from a
state of the invariant it does not panic, and it ends in a state of the
invariant. The loops (`discardAll`, `prepareLoop`, `prefetchLoop`,
`callbackLoop`) are inductions over what they loop on, each round one of
the moves of `BufferedRead.Custody`. What a function leaves as it was is
said by `SameCalls`; what its caller needs of the queue is said next to
it: the head `prepareLoop` leaves holds the offset, and `freshStart`
queues the block of the offset first.
-/

namespace GcsFuse

namespace BufferedRead

open Block

namespace BufferedReader

variable {cfg : BufferedReadConfig} {objectSize : ℕ} {obj : ℕ → UInt8}
variable {s t : BufferedReader} {h : List ℕ}

/-- The head of the queue starts at the window's base. -/
theorem HeapInv.head_start (hi : HeapInv cfg objectSize obj s h) {e : ℕ} {q : List ℕ}
    (hq : s.blockQueue = e :: q) :
    (s.blockOf e).absStartOff =
      some ((s.nextBlockIndexToPrefetch - s.blockQueue.length) * cfg.prefetchBlockSizeBytes) := by
  have hs := hi.starts
  rw [hq, List.map_cons, List.length_cons, List.range'_succ, List.map_cons] at hs
  rw [hq, List.length_cons]
  exact (List.cons.inj hs).1

/-- A queued block is placed. -/
theorem HeapInv.placed (hi : HeapInv cfg objectSize obj s h) {e : ℕ} (he : e ∈ s.blockQueue) :
    ∃ start, (s.blockOf e).absStartOff = some start := by
  have hm : (s.blockOf e).absStartOff ∈ s.blockQueue.map fun e => (s.blockOf e).absStartOff :=
    List.mem_map_of_mem he
  rw [hi.starts, List.mem_map] at hm
  obtain ⟨i, -, hi⟩ := hm
  exact ⟨_, hi.symm⟩

/-- Over an empty queue the window's next index is free to move. -/
theorem HeapInv.of_empty (hi : HeapInv cfg objectSize obj s h) (hq : s.blockQueue = [])
    (htq : t.blockQueue = []) (hte : t.entries = s.entries) (htb : t.blocks = s.blocks)
    (htp : t.blockPool = s.blockPool) : HeapInv cfg objectSize obj t h := by
  have hent := entry_congr hte
  have hblk := block_congr htb
  have hof : ∀ x, t.blockOf x = s.blockOf x := fun x => by simp only [blockOf, hent, hblk]
  have hact : ∀ x, Active t h x ↔ Active s h x := fun x => by simp only [Active, hq, htq]
  exact {
    queue_nodup := htq ▸ List.nodup_nil
    queue_fresh := fun x hx => by simp [htq] at hx
    held_evicted := fun x hx _ => hent x ▸ hi.held_evicted x hx (by simp [hq])
    held_downloaded := fun x hx => hof x ▸ hi.held_downloaded x hx
    active_lt := fun x hx => by
      rw [hent, hte, htb]
      exact hi.active_lt x ((hact x).1 hx)
    active_inj := fun x y hx hy hxy => by
      rw [hent, hent] at hxy
      exact hi.active_inj x y ((hact x).1 hx) ((hact y).1 hy) hxy
    refCount := fun x hx => hof x ▸ hi.refCount x ((hact x).1 hx)
    pool := fun p hp => (hi.pool p (htp ▸ hp)).congr hact (fun x => by rw [hent]) (by rw [htb])
      (fun b _ => by rw [hblk])
    le_next := by simp [htq]
    starts := by simp [htq]
    data := fun x hx => by simp [htq] at hx }

/-! ## Discarding blocks -/

theorem cancelAndWait_eq (s : BufferedReader) (e : ℕ) :
    s.cancelAndWait e = if (s.blockOf e).state = .inProgress then
      s.setBlock (s.entry e).block { s.blockOf e with state := .downloadFailed } else s := rfl

theorem cancelAndWait_pop (s : BufferedReader) (q : List ℕ) (e : ℕ) :
    cancelAndWait { s with blockQueue := q } e = { (cancelAndWait s e) with blockQueue := q } := by
  rw [cancelAndWait_eq, cancelAndWait_eq]
  by_cases hst : (s.blockOf e).state = .inProgress
  · rw [if_pos (show (({ s with blockQueue := q } : BufferedReader).blockOf e).state = .inProgress
      from hst), if_pos hst]
    rfl
  · rw [if_neg (show ¬(({ s with blockQueue := q } : BufferedReader).blockOf e).state = .inProgress
      from hst), if_neg hst]

/-- `cancelAndWait` on a queued entry: a running download ends failed. -/
theorem HeapInv.cancelAndWait (hi : HeapInv cfg objectSize obj s h) {e : ℕ} (he : e ∈ s.blockQueue) :
    HeapInv cfg objectSize obj (s.cancelAndWait e) h ∧ (s.cancelAndWait e).blockQueue = s.blockQueue ∧
      (s.cancelAndWait e).nextBlockIndexToPrefetch = s.nextBlockIndexToPrefetch ∧
      SameCalls s (s.cancelAndWait e) := by
  rw [cancelAndWait_eq]
  split
  · rename_i hprog
    exact ⟨hi.setContent he hprog rfl rfl (fun hd => by cases hd), rfl, rfl,
      ⟨rfl, rfl, rfl, rfl, rfl, rfl, rfl⟩⟩
  · exact ⟨hi, rfl, rfl, SameCalls.refl s⟩

/-- `releaseOrMarkEvicted` on the entry just popped. -/
theorem releaseOrMarkEvicted_pop (s : BufferedReader) (q : List ℕ) (e : ℕ) :
    releaseOrMarkEvicted { s with blockQueue := q } e =
      if 0 < (s.blockOf e).refCount then
        some { s with
          blockQueue := q
          entries := s.entries.set e { s.entry e with wasEvicted := true } }
      else release { s with blockQueue := q } (s.entry e).block := rfl

/-- **Releasing the head** no reference is held on: its block goes back to
the pool. -/
theorem HeapInv.releaseHead (hi : HeapInv cfg objectSize obj s h) {p : GenBlockPool}
    (hp : s.blockPool = some p) {e : ℕ} {q : List ℕ} (hq : s.blockQueue = e :: q) (hnh : e ∉ h) :
    ∃ t, release { s with blockQueue := q } (s.entry e).block = some t ∧
      HeapInv cfg objectSize obj t h ∧ t.blockQueue = q ∧
      t.nextBlockIndexToPrefetch = s.nextBlockIndexToPrefetch ∧ SameCalls s t := by
  have hlt := hi.length_free_lt hp (active_of_queue (hq ▸ List.mem_cons_self))
  refine ⟨{ s with
      blockQueue := q
      blockPool := some { p with freeBlocksCh := p.freeBlocksCh ++ [(s.entry e).block] } },
    by simp [release, hp, GenBlockPool.release, hlt],
    hi.popRelease hp hq hnh rfl rfl rfl rfl rfl, rfl, rfl, ⟨rfl, rfl, rfl, rfl, rfl, rfl, by simp [hp]⟩⟩

/-- **Discarding the head**: it is cancelled, then released, or marked
evicted while references are held on it. -/
theorem HeapInv.discard (hi : HeapInv cfg objectSize obj s h) (hp : s.blockPool.isSome) {e : ℕ}
    {q : List ℕ} (hq : s.blockQueue = e :: q) :
    ∃ t, discard { s with blockQueue := q } e = some t ∧ HeapInv cfg objectSize obj t h ∧
      t.blockQueue = q ∧ t.nextBlockIndexToPrefetch = s.nextBlockIndexToPrefetch ∧ SameCalls s t := by
  have heq : e ∈ s.blockQueue := hq ▸ List.mem_cons_self
  obtain ⟨hi₁, hq₁, hn₁, hc₁⟩ := hi.cancelAndWait heq
  rw [BufferedReader.discard, cancelAndWait_pop, releaseOrMarkEvicted_pop]
  have hae : Active (s.cancelAndWait e) h e := active_of_queue (hq₁ ▸ heq)
  by_cases hpos : 0 < ((s.cancelAndWait e).blockOf e).refCount
  · -- references are held: the entry is marked evicted
    have heh : e ∈ h := List.count_pos_iff.1 (hi₁.refCount e hae ▸ hpos)
    rw [if_pos hpos]
    exact ⟨_, rfl, hi₁.popEvict (hq₁.trans hq) heh rfl rfl rfl rfl rfl, rfl, hn₁,
      hc₁.trans ⟨rfl, rfl, rfl, rfl, rfl, rfl, rfl⟩⟩
  · -- no reference: the block goes back to the pool
    have hnh : e ∉ h := fun heh =>
      hpos (hi₁.refCount e hae ▸ List.count_pos_iff.2 heh)
    rw [if_neg hpos]
    obtain ⟨p, hp₁⟩ := Option.isSome_iff_exists.1 (hc₁.poolSome ▸ hp)
    obtain ⟨t, ht, hit, htq, htn, htc⟩ := hi₁.releaseHead hp₁ (hq₁.trans hq) hnh
    exact ⟨t, ht, hit, htq, htn.trans hn₁, hc₁.trans htc⟩

/-- The loop that discards a whole queue ends with it empty. -/
theorem HeapInv.discardAll (es : List ℕ) : ∀ {s : BufferedReader},
    HeapInv cfg objectSize obj s h → s.blockPool.isSome → s.blockQueue = es →
    ∃ t, discardAll es s = some t ∧ HeapInv cfg objectSize obj t h ∧ t.blockQueue = [] ∧
      t.nextBlockIndexToPrefetch = s.nextBlockIndexToPrefetch ∧ SameCalls s t := by
  induction es with
  | nil => exact fun hi _ hq => ⟨_, rfl, hi, hq, rfl, SameCalls.refl _⟩
  | cons e es ih =>
    intro s hi hp hq
    obtain ⟨t, ht, hit, htq, htn, htc⟩ := hi.discard hp hq
    obtain ⟨u, hu, hiu, huq, hun, huc⟩ := ih hit (htc.poolSome ▸ hp) htq
    exact ⟨u, by simp only [BufferedReader.discardAll, ht, hu], hiu, huq, hun.trans htn,
      htc.trans huc⟩

theorem HeapInv.clearQueue (hi : HeapInv cfg objectSize obj s h) (hp : s.blockPool.isSome) :
    ∃ t, clearQueue s = some t ∧ HeapInv cfg objectSize obj t h ∧ t.blockQueue = [] ∧
      t.nextBlockIndexToPrefetch = s.nextBlockIndexToPrefetch ∧ SameCalls s t :=
  hi.discardAll s.blockQueue hp rfl

/-- **`prepareQueueForOffset`** discards the head until it holds the
offset, or the queue is empty. -/
theorem HeapInv.prepareLoop (offset : ℕ) (es : List ℕ) : ∀ {s : BufferedReader},
    HeapInv cfg objectSize obj s h → s.blockPool.isSome → s.blockQueue = es →
    ∃ t, prepareLoop cfg offset es s = some t ∧ HeapInv cfg objectSize obj t h ∧
      t.nextBlockIndexToPrefetch = s.nextBlockIndexToPrefetch ∧ SameCalls s t ∧
      ∀ e q, t.blockQueue = e :: q → holds cfg t offset e = some true := by
  induction es with
  | nil => exact fun hi _ hq => ⟨_, rfl, hi, rfl, SameCalls.refl _, fun e q he => by simp [hq] at he⟩
  | cons e es ih =>
    intro s hi hp hq
    obtain ⟨start, hstart⟩ := hi.placed (hq ▸ List.mem_cons_self)
    cases hh : holds cfg s offset e with
    | none => simp [holds, hstart] at hh
    | some b =>
      cases b with
      | true =>
        refine ⟨s, by simp only [BufferedReader.prepareLoop, hh], hi, rfl, SameCalls.refl s, ?_⟩
        intro e' q' he'
        rw [hq, List.cons.injEq] at he'
        exact he'.1 ▸ hh
      | false =>
        obtain ⟨t, ht, hit, htq, htn, htc⟩ := hi.discard hp hq
        obtain ⟨u, hu, hiu, hun, huc, huh⟩ := ih hit (htc.poolSome ▸ hp) htq
        exact ⟨u, by simp only [BufferedReader.prepareLoop, hh, ht, hu], hiu, hun.trans htn,
          htc.trans huc, huh⟩

/-! ## Queueing blocks -/

/-- The block `TryGet` hands out is as `Reuse` or `createPrefetchBlock`
leaves it. -/
theorem tryGet_block {p p' : GenBlockPool} {blocks : List PrefetchBlock} {permits b : ℕ}
    (hi : HeapInv cfg objectSize obj s h) (hp : s.blockPool = some p)
    (htry : p.tryGet s.blocks s.globalPermits = some (p', blocks, permits, b))
    (htb : t.blocks = blocks) : t.block b = .create := by
  rcases GenBlockPool.tryGet_eq_some htry with ⟨hfree, rfl, -⟩ | ⟨-, rfl, rfl, -, -⟩
  · have hbn := (hi.pool p hp).free_lt b (hfree ▸ List.mem_cons_self)
    rw [block_of_set htb hbn, if_pos rfl]
  · rw [block_of_append htb, if_pos rfl]

/-- `scheduleBlockWithIndex` places a block not yet placed, and queues it. -/
theorem scheduleBlockWithIndex_spec {b : ℕ} (hb : (s.block b).absStartOff = none) (i : ℕ) :
    ∃ t, scheduleBlockWithIndex cfg s b i = some t ∧
      t.blockQueue = s.blockQueue ++ [s.entries.length] ∧ t.entries = s.entries ++ [⟨b, false⟩] ∧
      t.blocks = s.blocks.set b { s.block b with absStartOff := some (i * cfg.prefetchBlockSizeBytes) } ∧
      t.blockPool = s.blockPool ∧ t.nextBlockIndexToPrefetch = s.nextBlockIndexToPrefetch ∧
      t.numPrefetchBlocks = s.numPrefetchBlocks ∧ SameCalls s t := by
  simp only [scheduleBlockWithIndex, PrefetchBlock.setAbsStartOff, hb, Option.isSome_none,
    Bool.false_eq_true, if_false]
  exact ⟨_, rfl, rfl, rfl, rfl, rfl, rfl, rfl, ⟨rfl, rfl, rfl, rfl, rfl, rfl, rfl⟩⟩

/-- **`scheduleNextBlock`**: a block joins the queue at the next index, or
none is available and nothing changes. -/
theorem HeapInv.scheduleNextBlock (hi : HeapInv cfg objectSize obj s h) (hp : s.blockPool.isSome) :
    ∃ t err, BufferedReader.scheduleNextBlock cfg s = some (t, err) ∧
      HeapInv cfg objectSize obj t h ∧ SameCalls s t ∧ t.numPrefetchBlocks = s.numPrefetchBlocks ∧
      s.blockQueue <+: t.blockQueue ∧
      t.nextBlockIndexToPrefetch - t.blockQueue.length =
        s.nextBlockIndexToPrefetch - s.blockQueue.length ∧
      (err = none → t.blockQueue = s.blockQueue ++ [s.entries.length]) := by
  obtain ⟨p, hp⟩ := Option.isSome_iff_exists.1 hp
  cases htry : p.tryGet s.blocks s.globalPermits with
  | none =>
    refine ⟨s, some .prefetchBlockNotAvailable, ?_, hi, SameCalls.refl s, rfl, List.prefix_refl _,
      rfl, nofun⟩
    simp [BufferedReader.scheduleNextBlock, hp, htry]
  | some r =>
    obtain ⟨p', blocks, permits, b⟩ := r
    have hcreate := tryGet_block (t := { s with
      blockPool := some p', blocks := blocks, globalPermits := permits }) hi hp htry rfl
    obtain ⟨t, ht, htq, hte, htb, htp, htn, htk, htc⟩ := @scheduleBlockWithIndex_spec cfg
      { s with blockPool := some p', blocks := blocks, globalPermits := permits }
      b (by rw [hcreate]; rfl) s.nextBlockIndexToPrefetch
    rw [hcreate] at htb
    refine ⟨{ t with nextBlockIndexToPrefetch := t.nextBlockIndexToPrefetch + 1 }, none, ?_,
      hi.push hp htry htq hte htb htp (by simp [htn]), ⟨htc.randomSeekCount,
        htc.inflightCallbackWg, htc.reading, htc.responses, htc.destroying, htc.panicked,
        by simp [htp, hp]⟩, htk, by simp [htq], ?_, fun _ => htq⟩
    · simp [BufferedReader.scheduleNextBlock, hp, htry, ht]
    · have := hi.le_next
      simp only [htq, htn, List.length_append, List.length_singleton]
      omega

/-- The loop of `prefetch` only adds blocks behind the queue. -/
theorem HeapInv.prefetchLoop (n : ℕ) : ∀ {s : BufferedReader},
    HeapInv cfg objectSize obj s h → s.blockPool.isSome →
    ∃ t all err, BufferedReader.prefetchLoop cfg n s = some (t, all, err) ∧
      HeapInv cfg objectSize obj t h ∧ SameCalls s t ∧ t.numPrefetchBlocks = s.numPrefetchBlocks ∧
      s.blockQueue <+: t.blockQueue ∧
      t.nextBlockIndexToPrefetch - t.blockQueue.length =
        s.nextBlockIndexToPrefetch - s.blockQueue.length := by
  induction n with
  | zero => exact fun hi _ => ⟨_, _, _, rfl, hi, SameCalls.refl _, rfl, List.prefix_refl _, rfl⟩
  | succ n ih =>
    intro s hi hp
    obtain ⟨t, err, ht, hit, htc, htp, htq, htn, -⟩ := hi.scheduleNextBlock hp
    rcases err with _ | ⟨_ | _⟩
    · obtain ⟨u, all, err, hu, hiu, huc, hup, huq, hun⟩ := ih hit (htc.poolSome ▸ hp)
      exact ⟨u, all, err, by simp only [BufferedReader.prefetchLoop, ht, hu], hiu, htc.trans huc,
        hup.trans htp, htq.trans huq, hun.trans htn⟩
    · exact ⟨t, false, none, by simp only [BufferedReader.prefetchLoop, ht], hit, htc, htp, htq, htn⟩
    · exact ⟨t, false, some .setAbsStartOff, by simp only [BufferedReader.prefetchLoop, ht], hit, htc,
        htp, htq, htn⟩

/-- **`prefetch`** only adds blocks behind the queue. -/
theorem HeapInv.prefetch (hi : HeapInv cfg objectSize obj s h) (hp : s.blockPool.isSome) :
    ∃ t err, BufferedReader.prefetch cfg objectSize s = some (t, err) ∧
      HeapInv cfg objectSize obj t h ∧ SameCalls s t ∧ s.blockQueue <+: t.blockQueue ∧
      t.nextBlockIndexToPrefetch - t.blockQueue.length =
        s.nextBlockIndexToPrefetch - s.blockQueue.length := by
  unfold BufferedReader.prefetch
  dsimp only
  split
  · exact ⟨s, _, rfl, hi, SameCalls.refl s, List.prefix_refl _, rfl⟩
  · obtain ⟨t, all, err, ht, hit, htc, -, htq, htn⟩ := hi.prefetchLoop _ hp
    rw [ht]
    cases all
    · exact ⟨t, err, rfl, hit, htc, htq, htn⟩
    · exact ⟨_, err, rfl, hit.congr rfl rfl rfl rfl rfl, htc.trans ⟨rfl, rfl, rfl, rfl, rfl, rfl, rfl⟩,
        htq, htn⟩

/-- **`freshStart`** on an empty queue: on success the queue starts with
the block of the offset. -/
theorem HeapInv.freshStart (hi : HeapInv cfg objectSize obj s h) (hp : s.blockPool.isSome)
    (hq : s.blockQueue = []) (offset : ℕ) :
    ∃ t err, BufferedReader.freshStart cfg objectSize s offset = some (t, err) ∧
      HeapInv cfg objectSize obj t h ∧ SameCalls s t ∧
      (err = none → ∃ e q, t.blockQueue = e :: q ∧
        (t.blockOf e).absStartOff =
          some (offset / cfg.prefetchBlockSizeBytes * cfg.prefetchBlockSizeBytes)) := by
  -- the window restarts at the offset's block
  have hc₀ : SameCalls s { s with
      nextBlockIndexToPrefetch := offset / cfg.prefetchBlockSizeBytes
      numPrefetchBlocks := min cfg.initialPrefetchBlockCnt cfg.maxPrefetchBlockCnt } :=
    ⟨rfl, rfl, rfl, rfl, rfl, rfl, rfl⟩
  have hi₀ := hi.of_empty (t := { s with
    nextBlockIndexToPrefetch := offset / cfg.prefetchBlockSizeBytes
    numPrefetchBlocks := min cfg.initialPrefetchBlockCnt cfg.maxPrefetchBlockCnt }) hq hq rfl rfl rfl
  obtain ⟨t, err, ht, hit, htc, -, -, htn, hts⟩ := hi₀.scheduleNextBlock hp
  unfold BufferedReader.freshStart
  dsimp only
  rw [ht]
  rcases err with _ | err
  · obtain ⟨u, err', hu, hiu, huc, huq, hun⟩ := hit.prefetch (htc.poolSome ▸ hp)
    have htq := hts rfl
    simp only [hq, List.nil_append] at htq
    obtain ⟨q, hq'⟩ := huq
    rw [htq] at hq'
    refine ⟨u, none, by simp [hu], hiu, (hc₀.trans htc).trans huc, fun _ => ⟨_, q, hq'.symm, ?_⟩⟩
    -- prefetching keeps the window's base
    have htn' : t.nextBlockIndexToPrefetch - 1 = offset / cfg.prefetchBlockSizeBytes := by
      simpa [htq, hq] using htn
    rw [hiu.head_start hq'.symm, hun, htq, List.length_singleton, htn']
  · exact ⟨t, some err, rfl, hit, hc₀.trans htc, nofun⟩

/-! ## The read's own steps -/

/-- `isRandomSeek` reads the head's place, which is set. -/
theorem HeapInv.isRandomSeek_isSome (hi : HeapInv cfg objectSize obj s h) (offset : ℕ) :
    (isRandomSeek cfg s offset).isSome := by
  unfold isRandomSeek
  split
  · rfl
  · rename_i e q hq
    obtain ⟨start, hstart⟩ := hi.placed (hq ▸ List.mem_cons_self)
    simp [hstart]

/-- **`handleRandomRead`**: a random seek empties the queue; past the
threshold the reader restarts on an empty queue or falls back. Only while
it does not fall back may the seek count be at most the threshold. -/
theorem HeapInv.handleRandomRead (hi : HeapInv cfg objectSize obj s h) (hp : s.blockPool.isSome)
    (hth : cfg.randomSeekThreshold < s.randomSeekCount → s.blockQueue = [])
    (offset : ℕ) (sequential : Bool) :
    ∃ t fb, BufferedReader.handleRandomRead cfg s offset sequential = some (t, fb) ∧
      HeapInv cfg objectSize obj t h ∧ t.reading = s.reading ∧ t.responses = s.responses ∧
      t.inflightCallbackWg = s.inflightCallbackWg ∧ t.destroying = s.destroying ∧
      t.panicked = s.panicked ∧ t.blockPool.isSome ∧
      (cfg.randomSeekThreshold < t.randomSeekCount → t.blockQueue = []) ∧
      (fb = false → t.randomSeekCount ≤ cfg.randomSeekThreshold) := by
  -- past the threshold over an empty queue, a sequential read restarts the window
  have hpast : ∀ u : BufferedReader, HeapInv cfg objectSize obj u h → u.blockQueue = [] →
      u.blockPool.isSome →
      HeapInv cfg objectSize obj (pastThreshold cfg u sequential).1 h ∧
        (pastThreshold cfg u sequential).1.reading = u.reading ∧
        (pastThreshold cfg u sequential).1.responses = u.responses ∧
        (pastThreshold cfg u sequential).1.inflightCallbackWg = u.inflightCallbackWg ∧
        (pastThreshold cfg u sequential).1.destroying = u.destroying ∧
        (pastThreshold cfg u sequential).1.panicked = u.panicked ∧
        (pastThreshold cfg u sequential).1.blockPool.isSome ∧
        (pastThreshold cfg u sequential).1.blockQueue = [] ∧
        ((pastThreshold cfg u sequential).2 = false →
          (pastThreshold cfg u sequential).1.randomSeekCount ≤ cfg.randomSeekThreshold) := by
    intro u hiu huq hup
    unfold pastThreshold
    cases sequential
    · exact ⟨hiu, rfl, rfl, rfl, rfl, rfl, hup, huq, nofun⟩
    · exact ⟨hiu.of_empty huq huq rfl rfl rfl, rfl, rfl, rfl, rfl, rfl, hup, huq,
        fun _ => Nat.zero_le _⟩
  unfold BufferedReader.handleRandomRead
  split
  · rename_i hlt
    obtain ⟨h1, h2, h3, h4, h5, h6, h7, h8, h9⟩ := hpast s hi (hth hlt) hp
    exact ⟨_, _, rfl, h1, h2, h3, h4, h5, h6, h7, fun _ => h8, h9⟩
  · rename_i hle
    obtain ⟨r, hr⟩ := Option.isSome_iff_exists.1 (hi.isRandomSeek_isSome offset)
    rw [hr]
    cases r
    · exact ⟨s, false, rfl, hi, rfl, rfl, rfl, rfl, rfl, hp, fun h => absurd h hle,
        fun _ => Nat.le_of_not_lt hle⟩
    · -- a random seek: the queue is emptied
      obtain ⟨t, ht, hit, htq, -, htc⟩ := HeapInv.clearQueue (s := { s with
        randomSeekCount := s.randomSeekCount + 1 }) (hi.congr rfl rfl rfl rfl rfl) hp
      simp only [ht]
      split
      · obtain ⟨h1, h2, h3, h4, h5, h6, h7, h8, h9⟩ := hpast t hit htq (htc.poolSome ▸ hp)
        exact ⟨_, _, rfl, h1, h2.trans htc.reading, h3.trans htc.responses,
          h4.trans htc.inflightCallbackWg, h5.trans htc.destroying, h6.trans htc.panicked, h7,
          fun _ => h8, h9⟩
      · rename_i hle'
        exact ⟨t, false, rfl, hit, htc.reading, htc.responses, htc.inflightCallbackWg,
          htc.destroying, htc.panicked, htc.poolSome ▸ hp, fun h => absurd h hle',
          fun _ => Nat.le_of_not_lt hle'⟩

/-- **The top of a round**: the head of the queue holds the read offset,
or `freshStart` failed; the read call only learns that a prefetch ran. -/
theorem HeapInv.prepare (hi : HeapInv cfg objectSize obj s h) (hp : s.blockPool.isSome)
    (hB : 0 < cfg.prefetchBlockSizeBytes) (c : ReadCall) :
    ∃ t oc, BufferedReader.prepare cfg objectSize s c = some (t, oc) ∧
      HeapInv cfg objectSize obj t h ∧ SameCalls s t ∧
      ∀ c', oc = some c' → (∃ pt, c' = { c with prefetchTriggered := pt }) ∧
        ∃ e q, t.blockQueue = e :: q ∧ ∃ start, (t.blockOf e).absStartOff = some start ∧
          start ≤ c.readOffset ∧ c.readOffset < start + cfg.prefetchBlockSizeBytes := by
  obtain ⟨t, ht, hit, -, htc, hth⟩ := hi.prepareLoop c.readOffset s.blockQueue hp rfl
  unfold BufferedReader.prepare prepareQueueForOffset
  rw [ht]
  dsimp only
  split
  · -- nothing left: start afresh from the offset's block
    rename_i hq
    obtain ⟨u, err, hu, hiu, huc, hhead⟩ := hit.freshStart (htc.poolSome ▸ hp) hq c.readOffset
    rw [hu]
    rcases err with _ | err
    · refine ⟨u, _, rfl, hiu, htc.trans huc, fun c' hc' => ⟨⟨true, (Option.some.inj hc').symm⟩, ?_⟩⟩
      obtain ⟨e, q, hq', hstart⟩ := hhead rfl
      refine ⟨e, q, hq', _, hstart, Nat.div_mul_le_self _ _, ?_⟩
      have := Nat.lt_div_mul_add (a := c.readOffset) hB
      omega
    · exact ⟨u, none, rfl, hiu, htc.trans huc, nofun⟩
  · -- the head holds the offset
    rename_i hq
    refine ⟨t, some c, rfl, hit, htc, fun c' hc' => ⟨⟨c.prefetchTriggered, ?_⟩, ?_⟩⟩
    · rw [← Option.some.inj hc']
    · obtain ⟨e, q, hq'⟩ := List.exists_cons_of_ne_nil hq
      have hh := hth e q hq'
      unfold holds at hh
      obtain ⟨start, hstart⟩ := hit.placed (hq' ▸ List.mem_cons_self)
      rw [hstart] at hh
      simp only [Option.map_some, Option.some.injEq, Bool.and_eq_true, decide_eq_true_eq] at hh
      exact ⟨e, q, hq', start, hstart, hh.1, hh.2⟩

/-! ## Giving references back -/

/-- **`callbackLoop`** gives back every reference of `es`; blocks go back
to the pool with the last reference on an evicted entry. -/
theorem HeapInv.callbackLoop (es : List ℕ) : ∀ {s : BufferedReader},
    HeapInv cfg objectSize obj s (es ++ h) →
    ∃ t, BufferedReader.callbackLoop es s = some t ∧ HeapInv cfg objectSize obj t h ∧
      t.blockQueue = s.blockQueue ∧ t.nextBlockIndexToPrefetch = s.nextBlockIndexToPrefetch ∧
      SameCalls s t := by
  induction es with
  | nil => exact fun hi => ⟨_, rfl, hi, rfl, rfl, SameCalls.refl _⟩
  | cons e es ih =>
    intro s hi
    obtain ⟨t, ht, hit, htq, -, htn, htc⟩ := hi.giveBack es
    obtain ⟨u, hu, hiu, huq, hun, huc⟩ := ih hit
    exact ⟨u, ht.trans hu, hiu, huq.trans htq, hun.trans htn, htc.trans huc⟩

/-- **`callback`**: the loop, then one `Done` for each reference. -/
theorem HeapInv.callback {es : List ℕ} (hi : HeapInv cfg objectSize obj s (es ++ h))
    (hwg : es.length ≤ s.inflightCallbackWg) :
    ∃ t, s.callback es = some t ∧ HeapInv cfg objectSize obj t h ∧
      t.inflightCallbackWg = s.inflightCallbackWg - es.length ∧ t.blockQueue = s.blockQueue ∧
      t.reading = s.reading ∧ t.responses = s.responses ∧ t.destroying = s.destroying ∧
      t.panicked = s.panicked ∧ t.randomSeekCount = s.randomSeekCount ∧
      t.blockPool.isSome = s.blockPool.isSome := by
  obtain ⟨t, ht, hit, htq, htn, htc⟩ := hi.callbackLoop es
  have hwg' : es.length ≤ t.inflightCallbackWg := htc.inflightCallbackWg ▸ hwg
  refine ⟨{ t with inflightCallbackWg := t.inflightCallbackWg - es.length },
    by simp [BufferedReader.callback, ht, hwg'], hit.congr rfl rfl rfl rfl rfl, by
      simp [htc.inflightCallbackWg], htq, htc.reading, htc.responses, htc.destroying, htc.panicked,
      htc.randomSeekCount, htc.poolSome⟩

end BufferedReader

end BufferedRead

end GcsFuse
