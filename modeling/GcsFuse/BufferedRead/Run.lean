import GcsFuse.BufferedRead.Loop
import GcsFuse.Common.Run
/-!
# The buffered reader — what every run keeps

The references held are those of the responses and those of the read in
its loop. The invariant `Inv` adds to the heap invariant over them what
the calls keep: the wait group counts the references held, a read in its
loop has read the object's bytes from its offset, every successful
response holds the bytes it should, and nothing panicked.

A round of `ReadAt` changes the heap before it knows how it ends, so its
lemmas go through `Mid`: the invariant of a state whose read call is
being changed. `Inv.step` takes every action; `Inv.of_reachable` is the
run lemma.
-/

namespace GcsFuse

namespace BufferedRead

open Block Run

namespace BufferedReader

/-- The references the read in its loop took. -/
def inflight (s : BufferedReader) : List ℕ :=
  match s.reading with
  | some c => c.entriesToCallback
  | none => []

/-- The references held: by the responses, and by the read in its loop. -/
def held (s : BufferedReader) : List ℕ := s.responses.flatMap ReadResponse.held ++ s.inflight

section Invariant

variable (cfg : BufferedReadConfig) (objectSize : ℕ) (obj : ℕ → UInt8)

/-- What a read in its loop has so far: the bytes of the object from its
offset, as many as it read. -/
structure ReadOk (c : ReadCall) : Prop where
  readOffset : c.readOffset = c.offset + c.bytesRead
  le_len : c.bytesRead ≤ c.len
  lt_size : c.readOffset < objectSize
  slices : c.dataSlices.flatten = (List.range' c.offset c.bytesRead).map obj

/-- A successful response returns `min len (size - offset)` bytes of the
object from its offset. -/
def ResponseOk (r : ReadResponse) : Prop :=
  r.err = none →
    r.size = min r.len (objectSize - r.offset) ∧ r.data.flatten = (List.range' r.offset r.size).map obj

/-- **The invariant** of the buffered reader. -/
structure Inv (s : BufferedReader) : Prop where
  heap : HeapInv cfg objectSize obj s s.held
  wg : s.inflightCallbackWg = s.held.length
  blockSize : 0 < cfg.prefetchBlockSizeBytes
  pool : s.destroying = false → s.blockPool.isSome
  destroying : s.destroying = true → s.blockQueue = [] ∧ s.reading = none
  threshold : cfg.randomSeekThreshold < s.randomSeekCount → s.blockQueue = [] ∧ s.reading = none
  reading : ∀ c, s.reading = some c → ReadOk objectSize obj c
  responses : ∀ r ∈ s.responses, ResponseOk objectSize obj r
  panicked : s.panicked = false

/-- The invariant in the middle of a round of `ReadAt`, whose read call is
now `c`. -/
structure Mid (s : BufferedReader) (c : ReadCall) : Prop where
  heap : HeapInv cfg objectSize obj s (s.responses.flatMap ReadResponse.held ++ c.entriesToCallback)
  wg : s.inflightCallbackWg = (s.responses.flatMap ReadResponse.held ++ c.entriesToCallback).length
  blockSize : 0 < cfg.prefetchBlockSizeBytes
  pool : s.blockPool.isSome
  destroying : s.destroying = false
  threshold : cfg.randomSeekThreshold < s.randomSeekCount → s.blockQueue = []
  responses : ∀ r ∈ s.responses, ResponseOk objectSize obj r
  panicked : s.panicked = false

end Invariant

variable {cfg : BufferedReadConfig} {objectSize : ℕ} {obj : ℕ → UInt8}
variable {s t : BufferedReader}

theorem held_of_reading {c : ReadCall} (hc : s.reading = some c) :
    s.held = s.responses.flatMap ReadResponse.held ++ c.entriesToCallback := by
  simp [held, inflight, hc]

theorem held_of_idle (hc : s.reading = none) : s.held = s.responses.flatMap ReadResponse.held := by
  simp [held, inflight, hc]

/-- Responses are only added, so the old ones are a prefix of the new. -/
theorem prefix_of_responses_eq (h : t.responses = s.responses) : s.responses <+: t.responses :=
  h ▸ List.prefix_refl _

/-- The responses whose callback the kernel cannot call stay, and with
them the references they hold. -/
def Keeps (s t : BufferedReader) : Prop :=
  ∀ r ∈ s.responses, r.callback = false → r ∈ t.responses

theorem Keeps.refl (s : BufferedReader) : Keeps s s := fun _ hr _ => hr

theorem Keeps.trans {u : BufferedReader} (h₁ : Keeps s t) (h₂ : Keeps t u) : Keeps s u :=
  fun r hr hcb => h₂ r (h₁ r hr hcb) hcb

theorem Keeps.of_grow (h : s.responses <+: t.responses) : Keeps s t :=
  fun _ hr _ => h.subset hr

/-- A read in its loop is in the middle of a round. -/
theorem Inv.mid (hs : Inv cfg objectSize obj s) {c : ReadCall} (hc : s.reading = some c) :
    Mid cfg objectSize obj s c where
  heap := held_of_reading hc ▸ hs.heap
  wg := held_of_reading hc ▸ hs.wg
  blockSize := hs.blockSize
  pool := hs.pool (by
    cases hd : s.destroying
    · rfl
    · rw [(hs.destroying hd).2] at hc
      cases hc)
  destroying := by
    cases hd : s.destroying
    · rfl
    · rw [(hs.destroying hd).2] at hc
      cases hc
  threshold := fun hlt => (hs.threshold hlt).1
  responses := hs.responses
  panicked := hs.panicked

/-- A read in its loop is below the threshold of random seeks. -/
theorem Inv.count_le (hs : Inv cfg objectSize obj s) {c : ReadCall} (hc : s.reading = some c) :
    s.randomSeekCount ≤ cfg.randomSeekThreshold :=
  Nat.le_of_not_lt fun hlt => by
    rw [(hs.threshold hlt).2] at hc
    cases hc

/-- A round that goes on leaves the invariant with its read call. -/
theorem Mid.toInv {c : ReadCall} (hm : Mid cfg objectSize obj s c)
    (hth : s.randomSeekCount ≤ cfg.randomSeekThreshold) (hc : ReadOk objectSize obj c) :
    Inv cfg objectSize obj { s with reading := some c } where
  heap := by
    rw [held_of_reading (s := { s with reading := some c }) rfl]
    exact hm.heap.congr rfl rfl rfl rfl rfl
  wg := by
    rw [held_of_reading (s := { s with reading := some c }) rfl]
    exact hm.wg
  blockSize := hm.blockSize
  pool := fun _ => hm.pool
  destroying := fun hd => by
    rw [hm.destroying] at hd
    cases hd
  threshold := fun hlt => absurd hlt (Nat.not_lt_of_le hth)
  reading := fun c' hc' => by
    cases hc'
    exact hc
  responses := hm.responses
  panicked := hm.panicked

/-- What leaves the calls alone keeps the middle of a round. -/
theorem Mid.congr {c : ReadCall} (hm : Mid cfg objectSize obj s c)
    (hi : HeapInv cfg objectSize obj t (s.responses.flatMap ReadResponse.held ++ c.entriesToCallback))
    (hc : SameCalls s t) (hth : s.randomSeekCount ≤ cfg.randomSeekThreshold) :
    Mid cfg objectSize obj t c where
  heap := hc.responses ▸ hi
  wg := hc.responses ▸ hc.inflightCallbackWg ▸ hm.wg
  blockSize := hm.blockSize
  pool := hc.poolSome ▸ hm.pool
  destroying := hc.destroying ▸ hm.destroying
  threshold := fun hlt => absurd hlt (Nat.not_lt_of_le (hc.randomSeekCount ▸ hth))
  responses := hc.responses ▸ hm.responses
  panicked := hc.panicked ▸ hm.panicked

/-- Only the references of the read call matter in the middle of a round. -/
theorem Mid.call {c d : ReadCall} (hm : Mid cfg objectSize obj s c)
    (he : d.entriesToCallback = c.entriesToCallback) : Mid cfg objectSize obj s d where
  heap := he ▸ hm.heap
  wg := he ▸ hm.wg
  blockSize := hm.blockSize
  pool := hm.pool
  destroying := hm.destroying
  threshold := hm.threshold
  responses := hm.responses
  panicked := hm.panicked

/-! ## How a read ends -/

/-- A read that ends with a response holding the references it took
leaves the invariant. -/
theorem Mid.respond {c : ReadCall} (hm : Mid cfg objectSize obj s c) {r : ReadResponse}
    (hr : r.held = c.entriesToCallback) (hok : ResponseOk objectSize obj r) :
    Inv cfg objectSize obj { s with reading := none, responses := s.responses ++ [r] } := by
  have hheld : ({ s with reading := none, responses := s.responses ++ [r] } : BufferedReader).held =
      s.responses.flatMap ReadResponse.held ++ c.entriesToCallback := by
    simp [held, inflight, hr]
  exact {
    heap := by
      rw [hheld]
      exact hm.heap.congr rfl rfl rfl rfl rfl
    wg := by
      rw [hheld]
      exact hm.wg
    blockSize := hm.blockSize
    pool := fun _ => hm.pool
    destroying := fun hd => by simp [hm.destroying] at hd
    threshold := fun hlt => ⟨hm.threshold hlt, rfl⟩
    reading := fun _ hc => by cases hc
    responses := List.forall_mem_append.2 ⟨hm.responses, List.forall_mem_singleton.2 hok⟩
    panicked := hm.panicked }

/-- **A read returns**: its slices and references pass to the response. -/
theorem Mid.finish_ok {c : ReadCall} (hm : Mid cfg objectSize obj s c)
    (hok : c.bytesRead = min c.len (objectSize - c.offset))
    (hdata : c.dataSlices.flatten = (List.range' c.offset c.bytesRead).map obj) :
    ∃ t, finish s c none = some t ∧ Inv cfg objectSize obj t ∧
      s.responses <+: t.responses := by
  refine ⟨_, rfl, ?_, List.prefix_append _ _⟩
  exact hm.respond rfl fun _ => ⟨hok, hok ▸ hdata⟩

theorem finish_of_ne {c : ReadCall} {err : ReadErr} (herr : err ≠ .fallbackToAnotherReader) :
    finish s c (some err) = some { s with
      reading := none
      responses := s.responses ++ [⟨c.offset, c.len, some err, 0, [], c.entriesToCallback, false⟩] } := by
  cases err <;> first | rfl | exact absurd rfl herr

/-- **A read fails**: no callback is set, and its references stay held. -/
theorem Mid.finish_failed {c : ReadCall} (hm : Mid cfg objectSize obj s c) {err : ReadErr}
    (herr : err ≠ .fallbackToAnotherReader) :
    ∃ t, finish s c (some err) = some t ∧ Inv cfg objectSize obj t ∧
      s.responses <+: t.responses := by
  refine ⟨_, finish_of_ne herr, ?_, List.prefix_append _ _⟩
  exact hm.respond rfl nofun

/-- **A read falls back**: the references it took are given back at once. -/
theorem Mid.finish_fallback {c : ReadCall} (hm : Mid cfg objectSize obj s c) :
    ∃ t, finish s c (some .fallbackToAnotherReader) = some t ∧ Inv cfg objectSize obj t ∧
      s.responses <+: t.responses := by
  have hi : HeapInv cfg objectSize obj { s with reading := none }
      (c.entriesToCallback ++ s.responses.flatMap ReadResponse.held) :=
    (hm.heap.congr (t := { s with reading := none }) rfl rfl rfl rfl rfl).perm List.perm_append_comm
  obtain ⟨u, hu, hiu, huw, huq, hrd, hur, hud, hup, hun, hupool⟩ :=
    hi.callback (by rw [hm.wg, List.length_append]; omega)
  have hheld : ({ u with
      responses := u.responses ++ [⟨c.offset, c.len, some .fallbackToAnotherReader, 0, [], [], false⟩] } :
        BufferedReader).held = s.responses.flatMap ReadResponse.held := by
    simp [held, inflight, hur, hrd]
  refine ⟨{ u with
      responses := u.responses ++ [⟨c.offset, c.len, some .fallbackToAnotherReader, 0, [], [], false⟩] },
    by simp only [finish, hu, Option.map_some], ?_, by rw [hur]; exact List.prefix_append _ _⟩
  exact {
    heap := by
      rw [hheld]
      exact hiu.congr rfl rfl rfl rfl rfl
    wg := by
      rw [hheld]
      simp only [huw, hm.wg, List.length_append]
      omega
    blockSize := hm.blockSize
    pool := fun _ => hupool ▸ hm.pool
    destroying := fun hd => by simp [hud, hm.destroying] at hd
    threshold := fun hlt => ⟨huq.trans (hm.threshold (Nat.lt_of_lt_of_eq hlt hun)), hrd⟩
    reading := fun _ hc => by simp [hrd] at hc
    responses := List.forall_mem_append.2
      ⟨fun r hr => hm.responses r (hur ▸ hr), List.forall_mem_singleton.2 nofun⟩
    panicked := hup ▸ hm.panicked }

/-! ## A round of the loop -/

/-- A slice taken from the head: one more reference, held by the read. -/
theorem Mid.incRef {c : ReadCall} (hm : Mid cfg objectSize obj s c) {e : ℕ} (he : e ∈ s.blockQueue)
    (hd : (s.blockOf e).state = .downloaded) {d : ReadCall}
    (hde : d.entriesToCallback = c.entriesToCallback ++ [e]) :
    Mid cfg objectSize obj { (s.setBlock (s.entry e).block (s.blockOf e).incRef) with
      inflightCallbackWg := s.inflightCallbackWg + 1 } d where
  heap := by
    rw [hde, ← List.append_assoc]
    exact (hm.heap.incRef he hd).congr rfl rfl rfl rfl rfl
  wg := by
    show s.inflightCallbackWg + 1 =
      (s.responses.flatMap ReadResponse.held ++ d.entriesToCallback).length
    rw [hde, ← List.append_assoc, List.length_append, hm.wg]
    rfl
  blockSize := hm.blockSize
  pool := hm.pool
  destroying := hm.destroying
  threshold := hm.threshold
  responses := hm.responses
  panicked := hm.panicked

/-- `takeSlice` of a non-empty slice. -/
theorem takeSlice_of_pos {c : ReadCall} {e start : ℕ} {data : List UInt8} (hpos : 0 < data.length) :
    takeSlice cfg objectSize s c e start data =
      let t := { (s.setBlock (s.entry e).block (s.blockOf e).incRef) with
        inflightCallbackWg := s.inflightCallbackWg + 1 }
      let c' := { c with
        bytesRead := c.bytesRead + data.length
        readOffset := c.readOffset + data.length
        dataSlices := c.dataSlices ++ [data]
        entriesToCallback := c.entriesToCallback ++ [e] }
      if objectSize ≤ c'.readOffset then finish t c' none
      else if start + (s.blockOf e).size ≤ c'.readOffset then popConsumed cfg objectSize t c' e
      else some { t with reading := some c' } := by
  simp only [takeSlice, if_pos hpos]

/-- **The head read to its end** leaves the queue, marked evicted since
the read holds a reference on it; the first such block prefetches. -/
theorem Mid.popConsumed {c : ReadCall} (hm : Mid cfg objectSize obj s c)
    (hth : s.randomSeekCount ≤ cfg.randomSeekThreshold) (hc : ReadOk objectSize obj c)
    {e : ℕ} {q : List ℕ} (hq : s.blockQueue = e :: q) (he : e ∈ c.entriesToCallback) :
    ∃ t, popConsumed cfg objectSize s c e = some t ∧ Inv cfg objectSize obj t ∧
      s.responses <+: t.responses := by
  have heh : e ∈ s.responses.flatMap ReadResponse.held ++ c.entriesToCallback :=
    List.mem_append_right _ he
  have hpos : 0 < (s.blockOf e).refCount := by
    rw [hm.heap.refCount e (active_of_held heh)]
    exact List.count_pos_iff.2 heh
  have hm₁ : Mid cfg objectSize obj { s with
      blockQueue := q
      entries := s.entries.set e { s.entry e with wasEvicted := true } } c :=
    hm.congr (hm.heap.popEvict hq heh rfl rfl rfl rfl rfl) ⟨rfl, rfl, rfl, rfl, rfl, rfl, rfl⟩ hth
  rw [BufferedReader.popConsumed, hq, List.tail_cons, releaseOrMarkEvicted_pop, if_pos hpos]
  cases hpt : c.prefetchTriggered
  · -- the first block this read consumed: prefetch, whose failure is only logged
    obtain ⟨t, err, hpf, hit, htc, -, -⟩ := hm₁.heap.prefetch hm₁.pool
    refine ⟨{ t with reading := some { c with prefetchTriggered := true } }, by simp [hpf], ?_,
      prefix_of_responses_eq htc.responses⟩
    exact ((hm₁.congr hit htc hth).call (d := { c with prefetchTriggered := true }) rfl).toInv
      (htc.randomSeekCount ▸ hth)
      ⟨hc.readOffset, hc.le_len, hc.lt_size, hc.slices⟩
  · exact ⟨_, by simp, hm₁.toInv hth hc, List.prefix_refl _⟩

/-- **A slice taken** from the downloaded head: the read goes on, or ends at
the end of the object. -/
theorem Mid.takeSlice {c : ReadCall} (hm : Mid cfg objectSize obj s c)
    (hth : s.randomSeekCount ≤ cfg.randomSeekThreshold) (hc : ReadOk objectSize obj c)
    {e start : ℕ} {q : List ℕ} (hq : s.blockQueue = e :: q) (hd : (s.blockOf e).state = .downloaded)
    {data : List UInt8} (hdata : data = (List.range' c.readOffset data.length).map obj)
    (hpos : 0 < data.length) (hlen : c.bytesRead + data.length ≤ c.len)
    (hend : c.readOffset + data.length ≤ objectSize) :
    ∃ t, takeSlice cfg objectSize s c e start data = some t ∧ Inv cfg objectSize obj t ∧
      s.responses <+: t.responses := by
  have he : e ∈ s.blockQueue := hq ▸ List.mem_cons_self
  rw [takeSlice_of_pos hpos]
  dsimp only
  have hm' := hm.incRef he hd (d := { c with
    bytesRead := c.bytesRead + data.length
    readOffset := c.readOffset + data.length
    dataSlices := c.dataSlices ++ [data]
    entriesToCallback := c.entriesToCallback ++ [e] }) rfl
  -- the slices read so far, with the new one
  have hslices : (c.dataSlices ++ [data]).flatten =
      (List.range' c.offset (c.bytesRead + data.length)).map obj := by
    rw [List.flatten_append, hc.slices, List.flatten_singleton, hdata, hc.readOffset,
      ← List.map_append, List.range'_append_1, List.length_map, List.length_range']
  have hro := hc.readOffset
  have hle := hc.le_len
  split
  · -- the read reached the end of the object
    rename_i hfull
    exact hm'.finish_ok (by dsimp only at hfull ⊢; omega) hslices
  · rename_i hmore
    have hok : ReadOk objectSize obj { c with
        bytesRead := c.bytesRead + data.length
        readOffset := c.readOffset + data.length
        dataSlices := c.dataSlices ++ [data]
        entriesToCallback := c.entriesToCallback ++ [e] } :=
      ⟨by dsimp only; omega, by dsimp only; omega, Nat.lt_of_not_le hmore, hslices⟩
    split
    · -- the head is read to its end
      exact hm'.popConsumed hth hok hq (List.mem_append_right _ (List.mem_singleton_self e))
    · exact ⟨_, rfl, hm'.toInv hth hok, List.prefix_refl _⟩

/-- **The rest of a round** at the head, which holds the read offset: wait
for its block, give a failed block back, or take a slice. -/
theorem Mid.consume {c : ReadCall} (hm : Mid cfg objectSize obj s c)
    (hth : s.randomSeekCount ≤ cfg.randomSeekThreshold) (hc : ReadOk objectSize obj c)
    (hlt : c.bytesRead < c.len) {e : ℕ} {q : List ℕ} (hq : s.blockQueue = e :: q) {start : ℕ}
    (hstart : (s.blockOf e).absStartOff = some start) (hle : start ≤ c.readOffset)
    (hin : c.readOffset < start + cfg.prefetchBlockSizeBytes) (ctxDone : Bool) :
    ∃ t, consume cfg objectSize s c e ctxDone = some t ∧ Inv cfg objectSize obj t ∧
      s.responses <+: t.responses := by
  have he : e ∈ s.blockQueue := hq ▸ List.mem_cons_self
  unfold BufferedReader.consume
  dsimp only
  cases hst : (s.blockOf e).state with
  | inProgress =>
    -- the block is not ready: the read waits, unless its context ends
    cases ctxDone
    · exact ⟨_, if_neg Bool.false_ne_true, hm.toInv hth hc, List.prefix_refl _⟩
    · rw [if_pos rfl]
      exact hm.finish_failed nofun
  | downloadFailed =>
    -- no slice is ever taken from a failed block: it goes back to the pool
    have hnh : e ∉ s.responses.flatMap ReadResponse.held ++ c.entriesToCallback := fun heh => by
      have hdl := hm.heap.held_downloaded e heh
      rw [hst] at hdl
      cases hdl
    obtain ⟨p, hp⟩ := Option.isSome_iff_exists.1 hm.pool
    obtain ⟨t, ht, hit, -, -, htc⟩ := hm.heap.releaseHead hp hq hnh
    simp only [hq, List.tail_cons, ht]
    obtain ⟨u, hu, hiu, hpre⟩ : ∃ u, finish t c (some .downloadFailed) = some u ∧
        Inv cfg objectSize obj u ∧ t.responses <+: u.responses :=
      (hm.congr hit htc hth).finish_failed nofun
    exact ⟨u, hu, hiu, htc.responses ▸ hpre⟩
  | downloaded =>
    -- the block holds the object from its start, and the read offset is in it
    have hbuf := hm.heap.data e he hst start hstart
    have hoff : c.readOffset - start < min cfg.prefetchBlockSizeBytes (objectSize - start) := by
      have := hc.lt_size
      omega
    simp only [hstart, if_neg (Nat.not_lt_of_le hle), PrefetchBlock.readAtSlice_range' hbuf hoff,
      Nat.add_sub_of_le hle]
    have hn : ((List.range' c.readOffset (min (c.len - c.bytesRead)
        (min cfg.prefetchBlockSizeBytes (objectSize - start) - (c.readOffset - start)))).map obj).length =
        min (c.len - c.bytesRead)
          (min cfg.prefetchBlockSizeBytes (objectSize - start) - (c.readOffset - start)) := by
      simp
    exact hm.takeSlice hth hc hq hst (by rw [hn]) (by omega) (by omega) (by omega)

/-- **One round of the loop of `ReadAt`** keeps the invariant, and never
panics. -/
theorem Inv.readStep (hs : Inv cfg objectSize obj s) {c : ReadCall} (hc : s.reading = some c)
    (ctxDone : Bool) :
    ∃ t, readStep cfg objectSize s c ctxDone = some t ∧ Inv cfg objectSize obj t ∧
      s.responses <+: t.responses := by
  have hm := hs.mid hc
  have hth := hs.count_le hc
  have hok := hs.reading c hc
  unfold BufferedReader.readStep
  split
  · -- the read has all it asked for
    rename_i hdone
    have := hok.readOffset
    have := hok.le_len
    have := hok.lt_size
    exact hm.finish_ok (by omega) hok.slices
  · rename_i hlt
    obtain ⟨t, oc, hp, hit, htc, hspec⟩ := hm.heap.prepare hm.pool hm.blockSize c
    have hmt := hm.congr hit htc hth
    rw [hp]
    cases oc with
    | none =>
      obtain ⟨u, hu, hiu, hpre⟩ := hmt.finish_fallback
      exact ⟨u, hu, hiu, htc.responses ▸ hpre⟩
    | some d =>
      obtain ⟨⟨pt, rfl⟩, e, q, hq, start, hstart, hle, hin⟩ := hspec _ rfl
      simp only [hq]
      obtain ⟨u, hu, hiu, hpre⟩ := (hmt.call (d := { c with prefetchTriggered := pt }) rfl).consume
        (htc.randomSeekCount ▸ hth) ⟨hok.readOffset, hok.le_len, hok.lt_size, hok.slices⟩
        (Nat.lt_of_not_le hlt) hq hstart hle hin ctxDone
      exact ⟨u, hu, hiu, htc.responses ▸ hpre⟩

/-! ## The other calls -/

/-- What leaves the calls and the queue alone keeps the invariant. -/
theorem Inv.congr (hs : Inv cfg objectSize obj s) (hi : HeapInv cfg objectSize obj t s.held)
    (hc : SameCalls s t) (hq : t.blockQueue = s.blockQueue) : Inv cfg objectSize obj t := by
  have hheld : t.held = s.held := by simp [held, inflight, hc.responses, hc.reading]
  exact {
    heap := hheld ▸ hi
    wg := by
      rw [hheld, hc.inflightCallbackWg]
      exact hs.wg
    blockSize := hs.blockSize
    pool := fun hd => hc.poolSome ▸ hs.pool (hc.destroying ▸ hd)
    destroying := fun hd => by
      rw [hq, hc.reading]
      exact hs.destroying (hc.destroying ▸ hd)
    threshold := fun hlt => by
      rw [hq, hc.reading]
      exact hs.threshold (hc.randomSeekCount ▸ hlt)
    reading := fun c hc' => hs.reading c (hc.reading ▸ hc')
    responses := hc.responses ▸ hs.responses
    panicked := hc.panicked ▸ hs.panicked }

/-- **A response that holds no reference** keeps the invariant. -/
theorem Inv.respond (hs : Inv cfg objectSize obj s) {r : ReadResponse} (hr : r.held = [])
    (hok : ResponseOk objectSize obj r) :
    Inv cfg objectSize obj { s with responses := s.responses ++ [r] } := by
  have hheld : ({ s with responses := s.responses ++ [r] } : BufferedReader).held = s.held := by
    simp [held, inflight, hr]
  exact {
    heap := by
      rw [hheld]
      exact hs.heap.congr rfl rfl rfl rfl rfl
    wg := by
      rw [hheld]
      exact hs.wg
    blockSize := hs.blockSize
    pool := hs.pool
    destroying := hs.destroying
    threshold := hs.threshold
    reading := hs.reading
    responses := List.forall_mem_append.2 ⟨hs.responses, List.forall_mem_singleton.2 hok⟩
    panicked := hs.panicked }

/-- **`ReadAt` up to its loop** keeps the invariant, and never panics. -/
theorem Inv.readAt (hs : Inv cfg objectSize obj s) (hr : s.reading = none)
    (hd : s.destroying = false) (offset len : ℕ) (sequential : Bool) :
    ∃ t, readAt cfg objectSize s offset len sequential = some t ∧ Inv cfg objectSize obj t ∧
      s.responses <+: t.responses := by
  unfold BufferedReader.readAt
  split
  · -- at or past the end of the object
    exact ⟨_, rfl, hs.respond rfl nofun, List.prefix_append _ _⟩
  · rename_i hoff
    split
    · -- nothing asked for
      rename_i hlen
      exact ⟨_, rfl, hs.respond rfl fun _ => ⟨by simp [hlen], rfl⟩, List.prefix_append _ _⟩
    · obtain ⟨t, fb, hh, hit, htr, htres, htwg, htd, htp, htpool, htq, htfb⟩ :=
        hs.heap.handleRandomRead (hs.pool hd) (fun hlt => (hs.threshold hlt).1) offset sequential
      -- the read call starts with nothing read and no reference
      have hm : Mid cfg objectSize obj t ⟨offset, len, offset, 0, [], [], false⟩ := {
        heap := by
          rw [htres, List.append_nil, ← held_of_idle hr]
          exact hit
        wg := by
          rw [htwg, htres, List.append_nil, ← held_of_idle hr]
          exact hs.wg
        blockSize := hs.blockSize
        pool := htpool
        destroying := htd.trans hd
        threshold := htq
        responses := htres ▸ hs.responses
        panicked := htp.trans hs.panicked }
      dsimp only
      rw [hh]
      cases fb with
      | true =>
        obtain ⟨u, hu, hiu, hpre⟩ := hm.finish_fallback
        exact ⟨u, hu, hiu, htres ▸ hpre⟩
      | false =>
        exact ⟨_, rfl, hm.toInv (htfb rfl) ⟨rfl, Nat.zero_le _, Nat.lt_of_not_le hoff, rfl⟩,
          prefix_of_responses_eq htres⟩

/-- **A download ends** with the object's bytes from where its block was
placed, or fails. -/
theorem Inv.complete (hs : Inv cfg objectSize obj s) {e : ℕ} (he : e ∈ s.blockQueue)
    (hprog : (s.blockOf e).state = .inProgress) (ok : Bool) :
    Inv cfg objectSize obj (complete cfg objectSize obj s e ok) := by
  unfold BufferedReader.complete
  dsimp only
  cases ok
  · rw [if_neg Bool.false_ne_true]
    exact hs.congr (hs.heap.setContent he hprog rfl rfl nofun) ⟨rfl, rfl, rfl, rfl, rfl, rfl, rfl⟩ rfl
  · rw [if_pos rfl]
    refine hs.congr (hs.heap.setContent he hprog rfl rfl fun _ start hst => ?_)
      ⟨rfl, rfl, rfl, rfl, rfl, rfl, rfl⟩ rfl
    simp only at hst ⊢
    rw [hst]
    rfl

/-- Taking one element's list out of a list of lists. -/
theorem perm_flatMap_set {α β : Type*} {l : List α} {i : ℕ} (hi : i < l.length) (f : α → List β)
    {x : α} (hx : f x = []) : (l.flatMap f).Perm (f l[i] ++ (l.set i x).flatMap f) := by
  have hl : l.flatMap f = (l.take i).flatMap f ++ (f l[i] ++ (l.drop (i + 1)).flatMap f) := by
    conv_lhs => rw [← List.take_append_drop i l, List.drop_eq_getElem_cons hi]
    rw [List.flatMap_append, List.flatMap_cons]
  rw [hl, List.set_eq_take_append_cons_drop, if_pos hi, List.flatMap_append, List.flatMap_cons, hx,
    List.nil_append]
  exact List.perm_append_comm_assoc _ _ _

/-- An element other than the one replaced stays. -/
theorem mem_set_of_ne {α : Type*} {l : List α} {i : ℕ} (hi : i < l.length) {a : α} (ha : a ∈ l)
    (hne : a ≠ l[i]) (x : α) : a ∈ l.set i x := by
  obtain ⟨j, hj, rfl⟩ := List.mem_iff_getElem.1 ha
  have hij : i ≠ j := by
    rintro rfl
    exact hne rfl
  exact List.mem_iff_getElem.2 ⟨j, by simpa using hj, List.getElem_set_ne hij _⟩

/-- **The kernel's callback** gives back the references of its response;
the other responses stay. -/
theorem Inv.callbackResponse (hs : Inv cfg objectSize obj s) (hr : s.reading = none) {i : ℕ}
    (hcb : (s.response i).callback = true) :
    ∃ t, callbackResponse s i = some t ∧ Inv cfg objectSize obj t ∧ Keeps s t := by
  -- only a response of the list has a callback
  have hi : i < s.responses.length := by
    by_contra hge
    simp [response, List.getD_eq_getElem?_getD, Nat.le_of_not_lt hge] at hcb
  have hri : s.response i = s.responses[i] := by
    simp [response, List.getD_eq_getElem?_getD, hi]
  have hperm := perm_flatMap_set hi ReadResponse.held
    (x := { s.response i with held := [], callback := false }) rfl
  rw [← hri] at hperm
  have hh : HeapInv cfg objectSize obj s (s.responses.flatMap ReadResponse.held) :=
    held_of_idle hr ▸ hs.heap
  have hwg : s.inflightCallbackWg = (s.responses.flatMap ReadResponse.held).length :=
    held_of_idle hr ▸ hs.wg
  have hlen := hperm.length_eq
  rw [List.length_append] at hlen
  obtain ⟨t, ht, hit, htw, htq, htr, htres, htd, htp, htn, htpool⟩ :=
    ((hh.congr (t := { s with
      responses := s.responses.set i { s.response i with held := [], callback := false } })
      rfl rfl rfl rfl rfl).perm hperm).callback
        (show (s.response i).held.length ≤ s.inflightCallbackWg by omega)
  have htr' : t.reading = none := htr.trans hr
  have htheld : t.held =
      (s.responses.set i { s.response i with held := [], callback := false }).flatMap
        ReadResponse.held := by
    rw [held_of_idle htr', htres]
  refine ⟨t, ht, {
    heap := htheld ▸ hit
    wg := by
      rw [htheld, htw]
      show s.inflightCallbackWg - (s.response i).held.length = _
      omega
    blockSize := hs.blockSize
    pool := fun hd => by
      rw [htpool]
      exact hs.pool (htd ▸ hd)
    destroying := fun hd => ⟨by rw [htq]; exact (hs.destroying (htd ▸ hd)).1, htr'⟩
    threshold := fun hlt => ⟨by rw [htq]; exact (hs.threshold (htn ▸ hlt)).1, htr'⟩
    reading := fun c hc => by
      rw [htr'] at hc
      cases hc
    responses := fun r hr' => by
      rw [htres] at hr'
      rcases List.mem_or_eq_of_mem_set hr' with hr' | rfl
      · exact hs.responses r hr'
      · -- the response keeps its data; only its references are gone
        have hmem : s.response i ∈ s.responses := by
          rw [hri]
          exact List.getElem_mem hi
        exact hs.responses (s.response i) hmem
    panicked := htp.trans hs.panicked }, fun r hr' hrcb => ?_⟩
  -- the response called back had a callback: it is not one of those that stay
  rw [htres]
  refine mem_set_of_ne hi hr' (fun heq => ?_) _
  rw [hri, ← heq, hrcb] at hcb
  cases hcb

/-- **`Destroy` up to its wait** empties the queue. -/
theorem Inv.destroy (hs : Inv cfg objectSize obj s) (hr : s.reading = none)
    (hd : s.destroying = false) :
    ∃ t, destroy s = some t ∧ Inv cfg objectSize obj t ∧ s.responses <+: t.responses := by
  obtain ⟨t, ht, hit, htq, -, htc⟩ :=
    (hs.heap.congr (t := { s with destroying := true }) rfl rfl rfl rfl rfl).clearQueue (hs.pool hd)
  have hheld : t.held = s.held := by simp [held, inflight, htc.responses, htc.reading]
  have htr : t.reading = none := htc.reading.trans hr
  refine ⟨t, ht, {
    heap := hheld ▸ hit
    wg := by
      rw [hheld, htc.inflightCallbackWg]
      exact hs.wg
    blockSize := hs.blockSize
    pool := fun htd => by
      rw [htc.destroying] at htd
      cases htd
    destroying := fun _ => ⟨htq, htr⟩
    threshold := fun _ => ⟨htq, htr⟩
    reading := fun c hc => by
      rw [htr] at hc
      cases hc
    responses := htc.responses ▸ hs.responses
    panicked := htc.panicked.trans hs.panicked }, prefix_of_responses_eq htc.responses⟩

/-- Without the pool, no block is free, and nothing else changes. -/
theorem HeapInv.dropPool {h : List ℕ} (hi : HeapInv cfg objectSize obj s h) (globalPermits : ℕ) :
    HeapInv cfg objectSize obj { s with blockPool := none, globalPermits := globalPermits } h where
  queue_nodup := hi.queue_nodup
  queue_fresh := hi.queue_fresh
  held_evicted := hi.held_evicted
  held_downloaded := hi.held_downloaded
  active_lt := hi.active_lt
  active_inj := hi.active_inj
  refCount := hi.refCount
  pool := fun _ hp => by cases hp
  le_next := hi.le_next
  starts := hi.starts
  data := hi.data

/-- **The end of `Destroy`**: the free blocks are deallocated and the pool
is gone. -/
theorem Inv.destroyEnd (hs : Inv cfg objectSize obj s) (hd : s.destroying = true) :
    Inv cfg objectSize obj (destroyEnd s) := by
  unfold BufferedReader.destroyEnd
  split
  · exact {
      heap := hs.heap.dropPool _
      wg := hs.wg
      blockSize := hs.blockSize
      pool := fun hd' => by
        rw [hd] at hd'
        cases hd'
      destroying := hs.destroying
      threshold := hs.threshold
      reading := hs.reading
      responses := hs.responses
      panicked := hs.panicked }
  · exact hs

/-! ## Runs -/

/-- **`NewBufferedReader`** starts in the invariant. -/
theorem Inv.init {globalPermits : ℕ} {s₀ : BufferedReader}
    (h : new cfg objectSize globalPermits = some s₀) : Inv cfg objectSize obj s₀ := by
  unfold BufferedReader.new at h
  dsimp only at h
  split at h
  · cases h
  · rename_i hB
    obtain ⟨⟨p, permits⟩, hp, rfl⟩ := Option.map_eq_some_iff.1 h
    obtain ⟨hfree, htotal⟩ := GenBlockPool.new_eq_some hp
    -- nothing is queued, held or created
    have hna : ∀ e, ¬ Active (⟨0, 0, cfg.initialPrefetchBlockCnt, [], some p, [], [], permits, 0, none,
        [], false, false⟩ : BufferedReader) [] e := fun e he => by
      rcases he with he | he <;> cases he
    exact {
      heap := {
        queue_nodup := List.nodup_nil
        queue_fresh := nofun
        held_evicted := nofun
        held_downloaded := nofun
        active_lt := fun e he => absurd he (hna e)
        active_inj := fun e _ he _ _ => absurd he (hna e)
        refCount := fun e he => absurd he (hna e)
        pool := fun p' hp' => by
          cases hp'
          exact {
            total := htotal
            le_max := Nat.zero_le _
            free_nodup := hfree ▸ List.nodup_nil
            free_lt := fun b hb => by simp [hfree] at hb
            free_refCount := fun b hb => by simp [hfree] at hb
            active_not_free := fun e he => absurd he (hna e)
            cover := fun b hb => absurd hb (Nat.not_lt_zero b) }
        le_next := Nat.le_refl 0
        starts := rfl
        data := nofun }
      wg := rfl
      blockSize := Nat.pos_of_ne_zero hB
      pool := fun _ => rfl
      destroying := nofun
      threshold := fun _ => ⟨rfl, rfl⟩
      reading := nofun
      responses := nofun
      panicked := rfl }

theorem not_isSome_of_guard {o : Option ReadCall} {P Q : Prop} (hg : ¬(P ∨ o.isSome ∨ Q)) :
    o = none :=
  Option.not_isSome_iff_eq_none.1 fun ho => hg (.inr (.inl ho))

@[simp] theorem complete_responses (e : ℕ) (ok : Bool) :
    (complete cfg objectSize obj s e ok).responses = s.responses := by
  cases ok <;> rfl

@[simp] theorem destroyEnd_responses : (destroyEnd s).responses = s.responses := by
  unfold destroyEnd
  split <;> rfl

/-- **Every step keeps the invariant**, none panics, and the responses no
callback will release stay. -/
theorem Inv.step (hs : Inv cfg objectSize obj s) {a : Action}
    (h : step cfg objectSize obj s a = some t) : Inv cfg objectSize obj t ∧ Keeps s t := by
  cases a with
  | readAt offset len sequential =>
    rw [BufferedReader.step] at h
    split at h
    · cases h
    · rename_i hg
      have hd : s.destroying = false := by
        simpa using fun hd => hg (.inr (.inr hd))
      obtain ⟨u, hu, hiu, hpre⟩ := hs.readAt (not_isSome_of_guard hg) hd offset len sequential
      rw [hu] at h
      cases h
      exact ⟨hiu, .of_grow hpre⟩
  | readStep ctxDone =>
    rw [BufferedReader.step] at h
    rw [if_neg (by simp [hs.panicked])] at h
    obtain ⟨c, hc, hct⟩ := Option.map_eq_some_iff.1 h
    obtain ⟨u, hu, hiu, hpre⟩ := hs.readStep hc ctxDone
    rw [hu] at hct
    subst hct
    exact ⟨hiu, .of_grow hpre⟩
  | complete e ok =>
    rw [BufferedReader.step] at h
    split at h
    · cases h
    · rename_i hg
      cases h
      have he : e ∈ s.blockQueue := by
        by_contra hne
        exact hg (.inr (.inl hne))
      have hprog : (s.blockOf e).state = .inProgress := by
        by_contra hne
        exact hg (.inr (.inr hne))
      exact ⟨hs.complete he hprog ok, .of_grow (prefix_of_responses_eq (complete_responses e ok))⟩
  | callback i =>
    rw [BufferedReader.step] at h
    split at h
    · cases h
    · rename_i hg
      have hcb : (s.response i).callback = true := by
        simpa using fun hcb => hg (.inr (.inr hcb))
      obtain ⟨u, hu, hiu⟩ := hs.callbackResponse (not_isSome_of_guard hg) hcb
      rw [hu] at h
      cases h
      exact hiu
  | destroy =>
    rw [BufferedReader.step] at h
    split at h
    · cases h
    · rename_i hg
      have hd : s.destroying = false := by
        simpa using fun hd => hg (.inr (.inr hd))
      obtain ⟨u, hu, hiu, hpre⟩ := hs.destroy (not_isSome_of_guard hg) hd
      rw [hu] at h
      cases h
      exact ⟨hiu, .of_grow hpre⟩
  | destroyEnd timedOut =>
    rw [BufferedReader.step] at h
    split at h
    · cases h
    · rename_i hg
      cases h
      have hd : s.destroying = true := by
        by_contra hne
        exact hg (.inr (.inl (by simpa using hne)))
      exact ⟨hs.destroyEnd hd, .of_grow (prefix_of_responses_eq destroyEnd_responses)⟩
  | setPermits permits =>
    rw [BufferedReader.step] at h
    rw [if_neg (by simp [hs.panicked])] at h
    cases h
    exact ⟨hs.congr (hs.heap.congr rfl rfl rfl rfl rfl) ⟨rfl, rfl, rfl, rfl, rfl, rfl, rfl⟩ rfl,
      Keeps.refl s⟩

/-- **The run lemma**: every state a run reaches from a new reader holds
the invariant. -/
theorem Inv.of_reachable {globalPermits : ℕ} {s₀ : BufferedReader}
    (h₀ : new cfg objectSize globalPermits = some s₀)
    (hr : Reachable (BufferedReader.step cfg objectSize obj) s₀ s) :
    Inv cfg objectSize obj s :=
  hr.invariant (Inv.init h₀) fun _ _ _ hs h => (hs.step h).1

/-- From a state of the invariant, every later state holds it, and keeps
the responses no callback will release. -/
theorem Inv.reachable_keeps (hs : Inv cfg objectSize obj s)
    (hr : Reachable (BufferedReader.step cfg objectSize obj) s t) :
    Inv cfg objectSize obj t ∧ Keeps s t :=
  hr.invariant (I := fun u => Inv cfg objectSize obj u ∧ Keeps s u) ⟨hs, Keeps.refl s⟩
    fun _ _ _ hu h => ⟨(hu.1.step h).1, hu.2.trans (hu.1.step h).2⟩

end BufferedReader

end BufferedRead

end GcsFuse
