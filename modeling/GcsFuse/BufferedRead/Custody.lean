import GcsFuse.BufferedRead.Reader
import Mathlib.Data.List.Perm.Subperm
/-!
# The buffered reader — custody of the blocks

The invariant the reader's steps keep over the heap of blocks and
entries, for a list `h` of the references the responses hold. An entry is
**active** while it is queued or a reference on it is held. Then:

* active entries have blocks of their own, no two the same, none free;
  every block the pool created is free or has an active entry — so it is
  in exactly one of the queue, the evicted entries and the free channel;
* a block's reference count is the number of references held on its
  entry, and a held entry that left the queue is marked `wasEvicted`;
* the queue holds the blocks of consecutive indices up to
  `nextBlockIndexToPrefetch`, and a downloaded block holds its bytes.

Each primitive move of the code — pop a block and release it, pop it and
mark it evicted, cancel a download, queue a new block, take or give back
a reference, end a download — keeps the invariant; the functions of the
reader are put together from them in `BufferedRead.Loop`.
-/

namespace GcsFuse

namespace BufferedRead

open Block

namespace BufferedReader

/-! ## The heap -/

section Heap

variable {s u : BufferedReader}

theorem entry_congr (h : u.entries = s.entries) (e : ℕ) : u.entry e = s.entry e := by
  simp only [entry, h]

theorem block_congr (h : u.blocks = s.blocks) (b : ℕ) : u.block b = s.block b := by
  simp only [block, h]

theorem entry_of_set {e : ℕ} {x : BlockQueueEntry} (h : u.entries = s.entries.set e x)
    (he : e < s.entries.length) (e' : ℕ) : u.entry e' = if e = e' then x else s.entry e' := by
  simp only [entry, h, List.getD_eq_getElem?_getD, List.getElem?_set]
  split <;> simp_all

theorem entry_of_append {x : BlockQueueEntry} (h : u.entries = s.entries ++ [x]) (e' : ℕ) :
    u.entry e' = if e' = s.entries.length then x else s.entry e' := by
  simp only [entry, h, List.getD_eq_getElem?_getD]
  rcases Nat.lt_or_ge e' s.entries.length with hlt | hge
  · rw [List.getElem?_append_left hlt, if_neg (by omega)]
  · rw [List.getElem?_append_right hge, List.getElem?_eq_none (l := s.entries) hge]
    split
    · simp_all
    · have : 1 ≤ e' - s.entries.length := by omega
      simp [List.getElem?_eq_none, this]

theorem block_of_set {b : ℕ} {blk : PrefetchBlock} (h : u.blocks = s.blocks.set b blk)
    (hb : b < s.blocks.length) (b' : ℕ) : u.block b' = if b = b' then blk else s.block b' := by
  simp only [block, h, List.getD_eq_getElem?_getD, List.getElem?_set]
  split <;> simp_all

theorem block_of_append {blk : PrefetchBlock} (h : u.blocks = s.blocks ++ [blk]) (b' : ℕ) :
    u.block b' = if b' = s.blocks.length then blk else s.block b' := by
  simp only [block, h, List.getD_eq_getElem?_getD]
  rcases Nat.lt_or_ge b' s.blocks.length with hlt | hge
  · rw [List.getElem?_append_left hlt, if_neg (by omega)]
  · rw [List.getElem?_append_right hge, List.getElem?_eq_none (l := s.blocks) hge]
    split
    · simp_all
    · have : 1 ≤ b' - s.blocks.length := by omega
      simp [List.getElem?_eq_none, this]

@[simp] theorem setBlock_entries (b : ℕ) (blk : PrefetchBlock) :
    (s.setBlock b blk).entries = s.entries := rfl

@[simp] theorem setBlock_blockQueue (b : ℕ) (blk : PrefetchBlock) :
    (s.setBlock b blk).blockQueue = s.blockQueue := rfl

@[simp] theorem setBlock_blockPool (b : ℕ) (blk : PrefetchBlock) :
    (s.setBlock b blk).blockPool = s.blockPool := rfl

@[simp] theorem length_setBlock (b : ℕ) (blk : PrefetchBlock) :
    (s.setBlock b blk).blocks.length = s.blocks.length := by
  simp [setBlock]

@[simp] theorem setBlock_entry (b : ℕ) (blk : PrefetchBlock) (e : ℕ) :
    (s.setBlock b blk).entry e = s.entry e := rfl

@[simp] theorem setBlock_nextBlockIndexToPrefetch (b : ℕ) (blk : PrefetchBlock) :
    (s.setBlock b blk).nextBlockIndexToPrefetch = s.nextBlockIndexToPrefetch := rfl

theorem block_setBlock {b : ℕ} (hb : b < s.blocks.length) (blk : PrefetchBlock) (b' : ℕ) :
    (s.setBlock b blk).block b' = if b = b' then blk else s.block b' :=
  block_of_set rfl hb b'

theorem blockOf_setBlock {b : ℕ} (hb : b < s.blocks.length) (blk : PrefetchBlock) (e : ℕ) :
    (s.setBlock b blk).blockOf e = if b = (s.entry e).block then blk else s.blockOf e :=
  block_setBlock hb blk (s.entry e).block

theorem blockOf_setBlock_self {e : ℕ} (hb : (s.entry e).block < s.blocks.length) (blk : PrefetchBlock) :
    (s.setBlock (s.entry e).block blk).blockOf e = blk := by
  rw [blockOf_setBlock hb, if_pos rfl]

theorem blockOf_setBlock_of_ne {e x : ℕ} (hb : (s.entry e).block < s.blocks.length)
    (blk : PrefetchBlock) (hx : (s.entry x).block ≠ (s.entry e).block) :
    (s.setBlock (s.entry e).block blk).blockOf x = s.blockOf x := by
  rw [blockOf_setBlock hb, if_neg (Ne.symm hx)]

end Heap

/-! ## The invariant -/

section Invariant

variable (cfg : BufferedReadConfig) (objectSize : ℕ) (obj : ℕ → UInt8)

/-- An entry is live while it is queued or a reference on it is held. -/
def Active (s : BufferedReader) (h : List ℕ) (e : ℕ) : Prop := e ∈ s.blockQueue ∨ e ∈ h

/-- The custody of the blocks the pool `p` created: each is free, or the
block of an active entry, and a free block has no reference. -/
structure PoolInv (s : BufferedReader) (h : List ℕ) (p : GenBlockPool) : Prop where
  total : p.totalBlocks = s.blocks.length
  le_max : s.blocks.length ≤ p.maxBlocks
  free_nodup : p.freeBlocksCh.Nodup
  free_lt : ∀ b ∈ p.freeBlocksCh, b < s.blocks.length
  free_refCount : ∀ b ∈ p.freeBlocksCh, (s.block b).refCount = 0
  active_not_free : ∀ e, Active s h e → (s.entry e).block ∉ p.freeBlocksCh
  cover : ∀ b < s.blocks.length, b ∈ p.freeBlocksCh ∨ ∃ e, Active s h e ∧ (s.entry e).block = b

/-- **The heap invariant**, for the references `h` held on entries. -/
structure HeapInv (s : BufferedReader) (h : List ℕ) : Prop where
  queue_nodup : s.blockQueue.Nodup
  queue_fresh : ∀ e ∈ s.blockQueue, (s.entry e).wasEvicted = false
  held_evicted : ∀ e ∈ h, e ∉ s.blockQueue → (s.entry e).wasEvicted = true
  held_downloaded : ∀ e ∈ h, (s.blockOf e).state = .downloaded
  active_lt : ∀ e, Active s h e → e < s.entries.length ∧ (s.entry e).block < s.blocks.length
  active_inj : ∀ e e', Active s h e → Active s h e' → (s.entry e).block = (s.entry e').block → e = e'
  refCount : ∀ e, Active s h e → (s.blockOf e).refCount = h.count e
  pool : ∀ p, s.blockPool = some p → PoolInv s h p
  -- the window of the queue, and what its blocks hold
  le_next : s.blockQueue.length ≤ s.nextBlockIndexToPrefetch
  starts : s.blockQueue.map (fun e => (s.blockOf e).absStartOff) =
    (List.range' (s.nextBlockIndexToPrefetch - s.blockQueue.length) s.blockQueue.length).map
      fun i => some (i * cfg.prefetchBlockSizeBytes)
  data : ∀ e ∈ s.blockQueue, (s.blockOf e).state = .downloaded → ∀ start,
    (s.blockOf e).absStartOff = some start →
    (s.blockOf e).buffer = (List.range' start (min cfg.prefetchBlockSizeBytes (objectSize - start))).map obj

end Invariant

/-! ## Moves that keep it -/

section Moves

variable {cfg : BufferedReadConfig} {objectSize : ℕ} {obj : ℕ → UInt8}
variable {s t : BufferedReader} {h h' : List ℕ} {p : GenBlockPool}

theorem active_of_queue {e : ℕ} (he : e ∈ s.blockQueue) : Active s h e := .inl he

theorem active_of_held {e : ℕ} (he : e ∈ h) : Active s h e := .inr he

/-- The window after its head leaves. -/
theorem range'_pop {n k : ℕ} (hk : k + 1 ≤ n) :
    List.range' (n - (k + 1)) (k + 1) = (n - (k + 1)) :: List.range' (n - k) k := by
  rw [List.range'_succ]
  congr 2
  omega

/-- The window after a block joins it. -/
theorem range'_push {n k : ℕ} (hk : k ≤ n) :
    List.range' (n + 1 - (k + 1)) (k + 1) = List.range' (n - k) k ++ [n] := by
  rw [List.range'_concat]
  congr 2
  · omega
  · simp only [Nat.one_mul]
    omega

/-- A free channel that misses one of the blocks is not full. -/
theorem PoolInv.length_free_lt (hP : PoolInv s h p) {b : ℕ} (hb : b < s.blocks.length)
    (hnf : b ∉ p.freeBlocksCh) : p.freeBlocksCh.length < p.maxBlocks := by
  have hsub : p.freeBlocksCh ⊆ (List.range s.blocks.length).erase b := by
    intro x hx
    rw [List.mem_erase_of_ne (by rintro rfl; exact hnf hx)]
    exact List.mem_range.2 (hP.free_lt x hx)
  have hle := (hP.free_nodup.subperm hsub).length_le
  rw [List.length_erase_of_mem (List.mem_range.2 hb), List.length_range] at hle
  have := hP.le_max
  omega

/-- The custody is the same when the active entries, their blocks and the
free blocks' counts are. -/
theorem PoolInv.congr (hP : PoolInv s h p) (hact : ∀ x, Active t h' x ↔ Active s h x)
    (hent : ∀ x, (t.entry x).block = (s.entry x).block) (hlen : t.blocks.length = s.blocks.length)
    (hfree : ∀ b ∈ p.freeBlocksCh, (t.block b).refCount = (s.block b).refCount) :
    PoolInv t h' p where
  total := hlen ▸ hP.total
  le_max := hlen ▸ hP.le_max
  free_nodup := hP.free_nodup
  free_lt b hb := hlen ▸ hP.free_lt b hb
  free_refCount b hb := (hfree b hb).trans (hP.free_refCount b hb)
  active_not_free x hx := hent x ▸ hP.active_not_free x ((hact x).1 hx)
  cover b hb := by
    rcases hP.cover b (hlen ▸ hb) with hf | ⟨x, hx, rfl⟩
    · exact .inl hf
    · exact .inr ⟨x, (hact x).2 hx, hent x⟩

/-- An active entry `e` that stops being active gives its block back to
the free channel. -/
theorem PoolInv.release (hP : PoolInv s h p) {e : ℕ} (he : Active s h e)
    (hlt : (s.entry e).block < s.blocks.length)
    (hinj : ∀ x, Active s h x → (s.entry x).block = (s.entry e).block → x = e)
    (hact : ∀ x, Active t h' x ↔ Active s h x ∧ x ≠ e)
    (hent : ∀ x, (t.entry x).block = (s.entry x).block) (hlen : t.blocks.length = s.blocks.length)
    (hfree : ∀ b ∈ p.freeBlocksCh, (t.block b).refCount = (s.block b).refCount)
    (hzero : (t.block (s.entry e).block).refCount = 0) :
    PoolInv t h' { p with freeBlocksCh := p.freeBlocksCh ++ [(s.entry e).block] } where
  total := hlen ▸ hP.total
  le_max := hlen ▸ hP.le_max
  free_nodup := List.nodup_append.2
    ⟨hP.free_nodup, by simp, fun a ha b hb => by
      rw [List.mem_singleton] at hb
      rintro rfl
      exact hP.active_not_free e he (hb ▸ ha)⟩
  free_lt b hb := by
    rcases List.mem_append.1 hb with hb | hb
    · exact hlen ▸ hP.free_lt b hb
    · rw [List.mem_singleton] at hb
      exact hlen ▸ hb ▸ hlt
  free_refCount b hb := by
    rcases List.mem_append.1 hb with hb | hb
    · exact (hfree b hb).trans (hP.free_refCount b hb)
    · rw [List.mem_singleton] at hb
      exact hb ▸ hzero
  active_not_free x hx := by
    obtain ⟨hxs, hxe⟩ := (hact x).1 hx
    rw [hent x, List.mem_append, List.mem_singleton, not_or]
    exact ⟨hP.active_not_free x hxs, fun heq => hxe (hinj x hxs heq)⟩
  cover b hb := by
    rcases hP.cover b (hlen ▸ hb) with hf | ⟨x, hx, rfl⟩
    · exact .inl (List.mem_append_left _ hf)
    · by_cases hxe : x = e
      · subst hxe
        exact .inl (List.mem_append_right _ (List.mem_singleton_self _))
      · exact .inr ⟨x, (hact x).2 ⟨hx, hxe⟩, hent x⟩

/-- The invariant reads only the queue, the heap, the pool and the
window's next index. -/
theorem HeapInv.congr (hi : HeapInv cfg objectSize obj s h) (hq : t.blockQueue = s.blockQueue)
    (he : t.entries = s.entries) (hb : t.blocks = s.blocks) (hp : t.blockPool = s.blockPool)
    (hn : t.nextBlockIndexToPrefetch = s.nextBlockIndexToPrefetch) : HeapInv cfg objectSize obj t h := by
  have hent := entry_congr he
  have hblk := block_congr hb
  have hof : ∀ x, t.blockOf x = s.blockOf x := fun x => by simp only [blockOf, hent, hblk]
  have hact : ∀ x, Active t h x ↔ Active s h x := fun x => by simp only [Active, hq]
  exact {
    queue_nodup := hq ▸ hi.queue_nodup
    queue_fresh := fun x hx => hent x ▸ hi.queue_fresh x (hq ▸ hx)
    held_evicted := fun x hx hxq => hent x ▸ hi.held_evicted x hx (hq ▸ hxq)
    held_downloaded := fun x hx => hof x ▸ hi.held_downloaded x hx
    active_lt := fun x hx => by
      rw [hent, hb, he]
      exact hi.active_lt x ((hact x).1 hx)
    active_inj := fun x y hx hy => by
      rw [hent, hent]
      exact hi.active_inj x y ((hact x).1 hx) ((hact y).1 hy)
    refCount := fun x hx => hof x ▸ hi.refCount x ((hact x).1 hx)
    pool := fun p' hp' =>
      (hi.pool p' (hp ▸ hp')).congr hact (fun x => by rw [hent]) (by rw [hb])
        (fun b _ => by rw [hblk])
    le_next := hq ▸ hn ▸ hi.le_next
    starts := by
      rw [hq, hn]
      simpa only [hof] using hi.starts
    data := fun x hx => hof x ▸ hi.data x (hq ▸ hx) }

/-- Only how many references are held on each entry matters. -/
theorem HeapInv.perm (hi : HeapInv cfg objectSize obj s h) (hp : h.Perm h') :
    HeapInv cfg objectSize obj s h' := by
  have hact : ∀ x, Active s h' x ↔ Active s h x := fun x => by simp only [Active, hp.mem_iff]
  exact {
    hi with
    held_evicted := fun x hx => hi.held_evicted x (hp.mem_iff.2 hx)
    held_downloaded := fun x hx => hi.held_downloaded x (hp.mem_iff.2 hx)
    active_lt := fun x hx => hi.active_lt x ((hact x).1 hx)
    active_inj := fun x y hx hy => hi.active_inj x y ((hact x).1 hx) ((hact y).1 hy)
    refCount := fun x hx => (hi.refCount x ((hact x).1 hx)).trans (hp.count_eq x)
    pool := fun p' hp' => (hi.pool p' hp').congr hact (fun _ => rfl) rfl (fun _ _ => rfl) }

/-- **Pop and release**: the head entry, with no reference held on it,
leaves the queue and its block goes back to the free channel. -/
theorem HeapInv.popRelease (hi : HeapInv cfg objectSize obj s h) (hp : s.blockPool = some p)
    {e : ℕ} {q : List ℕ} (hq : s.blockQueue = e :: q) (he : e ∉ h)
    (htq : t.blockQueue = q) (hte : t.entries = s.entries) (htb : t.blocks = s.blocks)
    (htp : t.blockPool = some { p with freeBlocksCh := p.freeBlocksCh ++ [(s.entry e).block] })
    (htn : t.nextBlockIndexToPrefetch = s.nextBlockIndexToPrefetch) :
    HeapInv cfg objectSize obj t h := by
  have hnodup := hq ▸ hi.queue_nodup
  have heq : e ∈ s.blockQueue := hq ▸ List.mem_cons_self
  have hmem : ∀ x ∈ q, x ∈ s.blockQueue := fun x hx => hq ▸ List.mem_cons_of_mem e hx
  have hent := entry_congr hte
  have hof : ∀ x, t.blockOf x = s.blockOf x := fun x => by simp only [blockOf, hent, block_congr htb]
  -- the entries still active are those of `s` but `e`
  have hact : ∀ x, Active t h x ↔ Active s h x ∧ x ≠ e := by
    intro x
    simp only [Active, htq, hq, List.mem_cons]
    constructor
    · rintro (hx | hx)
      · exact ⟨.inl (.inr hx), by rintro rfl; exact (List.nodup_cons.1 hnodup).1 hx⟩
      · exact ⟨.inr hx, by rintro rfl; exact he hx⟩
    · rintro ⟨(rfl | hx) | hx, hxe⟩
      · exact absurd rfl hxe
      · exact .inl hx
      · exact .inr hx
  exact {
    queue_nodup := htq ▸ (List.nodup_cons.1 hnodup).2
    queue_fresh := fun x hx => hent x ▸ hi.queue_fresh x (hmem x (htq ▸ hx))
    held_evicted := fun x hx hxq => hent x ▸ hi.held_evicted x hx (by
      rw [hq, List.mem_cons]
      rintro (rfl | hx')
      · exact he hx
      · exact hxq (htq ▸ hx'))
    held_downloaded := fun x hx => hof x ▸ hi.held_downloaded x hx
    active_lt := fun x hx => by
      rw [hent, hte, htb]
      exact hi.active_lt x ((hact x).1 hx).1
    active_inj := fun x y hx hy hxy => by
      rw [hent, hent] at hxy
      exact hi.active_inj x y ((hact x).1 hx).1 ((hact y).1 hy).1 hxy
    refCount := fun x hx => hof x ▸ hi.refCount x ((hact x).1 hx).1
    pool := by
      intro p' hp'
      rw [htp, Option.some.injEq] at hp'
      subst hp'
      refine (hi.pool p hp).release (active_of_queue heq) (hi.active_lt e (active_of_queue heq)).2
        (fun x hx hb => hi.active_inj x e hx (active_of_queue heq) hb) hact (fun x => by rw [hent])
        (by rw [htb]) (fun b _ => by rw [block_congr htb]) ?_
      rw [block_congr htb]
      exact (hi.refCount e (active_of_queue heq)).trans (List.count_eq_zero.2 he)
    le_next := by
      have := hi.le_next
      rw [hq, List.length_cons] at this
      rw [htq, htn]
      omega
    starts := by
      have hs := hi.starts
      have hle := hi.le_next
      simp only [hq, List.map_cons, List.length_cons] at hs hle
      rw [range'_pop hle, List.map_cons] at hs
      rw [htq, htn]
      simpa only [hof] using (List.cons.inj hs).2
    data := fun x hx => hof x ▸ hi.data x (hmem x (htq ▸ hx)) }

/-- The free channel has room for the block of an active entry. -/
theorem HeapInv.length_free_lt (hi : HeapInv cfg objectSize obj s h) (hp : s.blockPool = some p)
    {e : ℕ} (he : Active s h e) : p.freeBlocksCh.length < p.maxBlocks :=
  (hi.pool p hp).length_free_lt (hi.active_lt e he).2 ((hi.pool p hp).active_not_free e he)

/-- **Pop and mark evicted**: the head entry, with references held on it,
leaves the queue marked `wasEvicted`; its block stays out of the pool. -/
theorem HeapInv.popEvict (hi : HeapInv cfg objectSize obj s h) {e : ℕ} {q : List ℕ}
    (hq : s.blockQueue = e :: q) (he : e ∈ h) (htq : t.blockQueue = q)
    (hte : t.entries = s.entries.set e { s.entry e with wasEvicted := true })
    (htb : t.blocks = s.blocks) (htp : t.blockPool = s.blockPool)
    (htn : t.nextBlockIndexToPrefetch = s.nextBlockIndexToPrefetch) :
    HeapInv cfg objectSize obj t h := by
  have hnodup := hq ▸ hi.queue_nodup
  have heq : e ∈ s.blockQueue := hq ▸ List.mem_cons_self
  have hmem : ∀ x ∈ q, x ∈ s.blockQueue := fun x hx => hq ▸ List.mem_cons_of_mem e hx
  have hent := entry_of_set hte (hi.active_lt e (active_of_queue heq)).1
  -- the blocks of the entries do not change, nor does which are active
  have hblock : ∀ x, (t.entry x).block = (s.entry x).block := fun x => by
    rw [hent]
    split
    · subst_vars; rfl
    · rfl
  have hof : ∀ x, t.blockOf x = s.blockOf x := fun x => by
    simp only [blockOf, hblock, block_congr htb]
  have hact : ∀ x, Active t h x ↔ Active s h x := by
    intro x
    simp only [Active, htq, hq, List.mem_cons]
    constructor
    · rintro (hx | hx)
      · exact .inl (.inr hx)
      · exact .inr hx
    · rintro ((rfl | hx) | hx)
      · exact .inr he
      · exact .inl hx
      · exact .inr hx
  have hfresh : ∀ x ∈ q, x ≠ e := fun x hx hxe => (List.nodup_cons.1 hnodup).1 (hxe ▸ hx)
  exact {
    queue_nodup := htq ▸ (List.nodup_cons.1 hnodup).2
    queue_fresh := fun x hx => by
      rw [htq] at hx
      rw [hent, if_neg (Ne.symm (hfresh x hx))]
      exact hi.queue_fresh x (hmem x hx)
    held_evicted := fun x hx hxq => by
      rw [hent]
      split
      · rfl
      · exact hi.held_evicted x hx (by
          rw [hq, List.mem_cons]
          rintro (rfl | hx')
          · contradiction
          · exact hxq (htq ▸ hx'))
    held_downloaded := fun x hx => hof x ▸ hi.held_downloaded x hx
    active_lt := fun x hx => by
      rw [hblock, hte, htb, List.length_set]
      exact hi.active_lt x ((hact x).1 hx)
    active_inj := fun x y hx hy hxy => by
      rw [hblock, hblock] at hxy
      exact hi.active_inj x y ((hact x).1 hx) ((hact y).1 hy) hxy
    refCount := fun x hx => hof x ▸ hi.refCount x ((hact x).1 hx)
    pool := fun p' hp' => (hi.pool p' (htp ▸ hp')).congr hact hblock (by rw [htb])
      (fun b _ => by rw [block_congr htb])
    le_next := by
      have := hi.le_next
      rw [hq, List.length_cons] at this
      rw [htq, htn]
      omega
    starts := by
      have hs := hi.starts
      have hle := hi.le_next
      simp only [hq, List.map_cons, List.length_cons] at hs hle
      rw [range'_pop hle, List.map_cons] at hs
      rw [htq, htn]
      simpa only [hof] using (List.cons.inj hs).2
    data := fun x hx => hof x ▸ hi.data x (hmem x (htq ▸ hx)) }

/-- Writing the block of an active entry changes what no other active
entry reads, since no two active entries share a block. -/
theorem HeapInv.blockOf_setBlock_active (hi : HeapInv cfg objectSize obj s h) {e x : ℕ}
    (hae : Active s h e) (hax : Active s h x) (blk : PrefetchBlock) :
    (s.setBlock (s.entry e).block blk).blockOf x = if x = e then blk else s.blockOf x := by
  split
  · subst_vars
    exact blockOf_setBlock_self (hi.active_lt _ hae).2 blk
  · exact blockOf_setBlock_of_ne (hi.active_lt e hae).2 blk
      fun hb => ‹¬x = e› (hi.active_inj x e hax hae hb)

/-- **A download ends**: the block of a queued entry whose download was
still running gets its bytes or fails; no reference is held on it. -/
theorem HeapInv.setContent (hi : HeapInv cfg objectSize obj s h) {e : ℕ} (he : e ∈ s.blockQueue)
    (hprog : (s.blockOf e).state = .inProgress) {blk : PrefetchBlock}
    (hstart : blk.absStartOff = (s.blockOf e).absStartOff) (hrc : blk.refCount = (s.blockOf e).refCount)
    (hdata : blk.state = .downloaded → ∀ start, blk.absStartOff = some start →
      blk.buffer = (List.range' start (min cfg.prefetchBlockSizeBytes (objectSize - start))).map obj) :
    HeapInv cfg objectSize obj (s.setBlock (s.entry e).block blk) h := by
  have hae : Active s h e := active_of_queue he
  have hblk := block_setBlock (hi.active_lt e hae).2 blk
  have hof := fun {x} (hx : Active s h x) => hi.blockOf_setBlock_active hae hx blk
  -- no reference is held on a block still downloading
  have hnh : e ∉ h := fun heh => by
    have := hi.held_downloaded e heh
    rw [hprog] at this
    cases this
  exact {
    hi with
    held_downloaded := fun x hx => by
      rw [hof (active_of_held hx), if_neg fun hxe : x = e => hnh (hxe ▸ hx)]
      exact hi.held_downloaded x hx
    active_lt := fun x hx => by
      rw [length_setBlock]
      exact hi.active_lt x hx
    refCount := fun x hx => by
      rw [hof hx]
      split
      · subst_vars
        rw [hrc]
        exact hi.refCount _ hae
      · exact hi.refCount x hx
    pool := fun p' hp' => (hi.pool p' hp').congr (fun _ => Iff.rfl) (fun _ => rfl)
      (length_setBlock _ _) (fun b hb => by
        have hne : (s.entry e).block ≠ b := fun heq =>
          (hi.pool p' hp').active_not_free e hae (heq ▸ hb)
        rw [hblk, if_neg hne])
    starts := by
      simp only [setBlock_blockQueue, setBlock_nextBlockIndexToPrefetch]
      rw [← hi.starts]
      refine List.map_congr_left fun x hx => ?_
      rw [hof (active_of_queue hx)]
      split
      · subst_vars
        rw [hstart]
      · rfl
    data := fun x hx => by
      rw [hof (active_of_queue hx)]
      split
      · subst_vars
        exact hdata
      · exact hi.data x hx }

/-- **A reference is taken** on a queued entry whose block is downloaded. -/
theorem HeapInv.incRef (hi : HeapInv cfg objectSize obj s h) {e : ℕ} (he : e ∈ s.blockQueue)
    (hd : (s.blockOf e).state = .downloaded) :
    HeapInv cfg objectSize obj (s.setBlock (s.entry e).block (s.blockOf e).incRef) (h ++ [e]) := by
  have hae : Active s h e := active_of_queue he
  have hblk := block_setBlock (hi.active_lt e hae).2 (s.blockOf e).incRef
  have hof := fun {x} (hx : Active s h x) => hi.blockOf_setBlock_active hae hx (s.blockOf e).incRef
  -- taking a reference changes no block but in its count
  have hcontent : ∀ x, Active s h x →
      ((s.setBlock (s.entry e).block (s.blockOf e).incRef).blockOf x).state = (s.blockOf x).state ∧
      ((s.setBlock (s.entry e).block (s.blockOf e).incRef).blockOf x).absStartOff =
        (s.blockOf x).absStartOff ∧
      ((s.setBlock (s.entry e).block (s.blockOf e).incRef).blockOf x).buffer = (s.blockOf x).buffer := by
    intro x hx
    rw [hof hx]
    split
    · subst_vars
      exact ⟨rfl, rfl, rfl⟩
    · exact ⟨rfl, rfl, rfl⟩
  have hact : ∀ x, Active (s.setBlock (s.entry e).block (s.blockOf e).incRef) (h ++ [e]) x ↔
      Active s h x := fun x => by
    simp only [Active, setBlock_blockQueue, List.mem_append, List.mem_singleton]
    constructor
    · rintro (hx | hx | rfl)
      · exact .inl hx
      · exact .inr hx
      · exact .inl he
    · rintro (hx | hx)
      · exact .inl hx
      · exact .inr (.inl hx)
  exact {
    queue_nodup := hi.queue_nodup
    queue_fresh := hi.queue_fresh
    held_evicted := fun x hx hxq => by
      rcases List.mem_append.1 hx with hx | hx
      · exact hi.held_evicted x hx hxq
      · rw [List.mem_singleton] at hx
        exact absurd (hx ▸ he) hxq
    held_downloaded := fun x hx => by
      rw [(hcontent x ((hact x).1 (.inr hx))).1]
      rcases List.mem_append.1 hx with hx | hx
      · exact hi.held_downloaded x hx
      · rw [List.mem_singleton] at hx
        exact hx ▸ hd
    active_lt := fun x hx => by
      rw [length_setBlock]
      exact hi.active_lt x ((hact x).1 hx)
    active_inj := fun x y hx hy => hi.active_inj x y ((hact x).1 hx) ((hact y).1 hy)
    refCount := fun x hx => by
      have hx' := (hact x).1 hx
      rw [hof hx']
      split
      · subst_vars
        simp [PrefetchBlock.incRef, hi.refCount _ hae]
      · have hxe : e ≠ x := Ne.symm ‹_›
        rw [hi.refCount x hx']
        simp [hxe]
    pool := fun p' hp' => (hi.pool p' hp').congr hact (fun _ => rfl) (length_setBlock _ _)
      (fun b hb => by
        have hne : (s.entry e).block ≠ b := fun heq =>
          (hi.pool p' hp').active_not_free e hae (heq ▸ hb)
        rw [hblk, if_neg hne])
    le_next := hi.le_next
    starts := by
      simp only [setBlock_blockQueue, setBlock_nextBlockIndexToPrefetch]
      rw [← hi.starts]
      exact List.map_congr_left fun x hx => (hcontent x (active_of_queue hx)).2.1
    data := fun x hx => by
      have hc := hcontent x (active_of_queue hx)
      rw [hc.1, hc.2.1, hc.2.2]
      exact hi.data x hx }

/-- **A block joins the queue**: the block `TryGet` handed out, placed at
the next index, under a new entry. -/
theorem HeapInv.push (hi : HeapInv cfg objectSize obj s h) (hp : s.blockPool = some p)
    {p' : GenBlockPool} {blocks : List PrefetchBlock} {permits b : ℕ}
    (htry : p.tryGet s.blocks s.globalPermits = some (p', blocks, permits, b))
    (htq : t.blockQueue = s.blockQueue ++ [s.entries.length])
    (hte : t.entries = s.entries ++ [⟨b, false⟩])
    (htb : t.blocks = blocks.set b
      { PrefetchBlock.create with
        absStartOff := some (s.nextBlockIndexToPrefetch * cfg.prefetchBlockSizeBytes) })
    (htp : t.blockPool = some p') (htn : t.nextBlockIndexToPrefetch = s.nextBlockIndexToPrefetch + 1) :
    HeapInv cfg objectSize obj t h := by
  have hP := hi.pool p hp
  have hent := entry_of_append hte
  -- what the new block is, and that no active entry has it
  obtain ⟨hblt, hlen, hfresh, hblock⟩ : b < t.blocks.length ∧ s.blocks.length ≤ t.blocks.length ∧
      (∀ x, Active s h x → (s.entry x).block ≠ b) ∧
      ∀ x, t.block x = if b = x then
        { PrefetchBlock.create with
          absStartOff := some (s.nextBlockIndexToPrefetch * cfg.prefetchBlockSizeBytes) }
        else s.block x := by
    rcases GenBlockPool.tryGet_eq_some htry with ⟨hfree, rfl, -⟩ | ⟨-, rfl, rfl, -, -⟩
    · have hbf : b ∈ p.freeBlocksCh := hfree ▸ List.mem_cons_self
      have hbn := hP.free_lt b hbf
      refine ⟨by simp [htb, hbn], by simp [htb], fun x hx heq => hP.active_not_free x hx (heq ▸ hbf),
        fun x => ?_⟩
      rw [block_of_set (s := { s with blocks := s.blocks.set b .create }) htb (by simp [hbn]),
        block_of_set (u := { s with blocks := s.blocks.set b .create }) rfl hbn]
      split <;> simp_all
    · refine ⟨by simp [htb], by simp [htb], fun x hx heq => by
        have := (hi.active_lt x hx).2
        omega, fun x => ?_⟩
      rw [block_of_set (s := { s with blocks := s.blocks ++ [.create] }) htb (by simp),
        block_of_append (u := { s with blocks := s.blocks ++ [.create] }) rfl]
      split
      · rfl
      · split
        · subst_vars; simp [block, List.getD_eq_getElem?_getD]
        · rfl
  have hnew : ∀ x, Active s h x → x ≠ s.entries.length := fun x hx heq => by
    have := (hi.active_lt x hx).1
    omega
  have hentOld : ∀ x, Active s h x → t.entry x = s.entry x := fun x hx => by
    rw [hent, if_neg (hnew x hx)]
  have hofOld : ∀ x, Active s h x → t.blockOf x = s.blockOf x := fun x hx => by
    simp only [blockOf, hentOld x hx, hblock, if_neg (Ne.symm (hfresh x hx))]
  have hentNew : t.entry s.entries.length = ⟨b, false⟩ := by rw [hent, if_pos rfl]
  have hofNew : t.blockOf s.entries.length = { PrefetchBlock.create with
      absStartOff := some (s.nextBlockIndexToPrefetch * cfg.prefetchBlockSizeBytes) } := by
    simp only [blockOf, hentNew, hblock, if_true]
  have hnotheld : s.entries.length ∉ h := fun hh => hnew _ (active_of_held hh) rfl
  have hact : ∀ x, Active t h x ↔ Active s h x ∨ x = s.entries.length := fun x => by
    simp only [Active, htq, List.mem_append, List.mem_singleton]
    exact or_right_comm
  have hblockOf : ∀ x, Active t h x → (t.entry x).block = if x = s.entries.length then b
      else (s.entry x).block := fun x hx => by
    rw [hent]
    split <;> rfl
  exact {
    queue_nodup := by
      rw [htq, List.nodup_append]
      exact ⟨hi.queue_nodup, by simp, fun a ha c hc => by
        rw [List.mem_singleton] at hc
        exact hc ▸ hnew a (active_of_queue ha)⟩
    queue_fresh := fun x hx => by
      rw [htq, List.mem_append, List.mem_singleton] at hx
      rcases hx with hx | rfl
      · rw [hentOld x (active_of_queue hx)]
        exact hi.queue_fresh x hx
      · rw [hentNew]
    held_evicted := fun x hx hxq => by
      rw [hentOld x (active_of_held hx)]
      exact hi.held_evicted x hx (fun hq => hxq (htq ▸ List.mem_append_left _ hq))
    held_downloaded := fun x hx => hofOld x (active_of_held hx) ▸ hi.held_downloaded x hx
    active_lt := fun x hx => by
      rw [hte, List.length_append, List.length_singleton]
      rcases (hact x).1 hx with hx | rfl
      · rw [hentOld x hx]
        have := hi.active_lt x hx
        omega
      · rw [hentNew]
        exact ⟨by omega, hblt⟩
    active_inj := fun x y hx hy hxy => by
      rcases (hact x).1 hx with hx | rfl <;> rcases (hact y).1 hy with hy | rfl
      · rw [hentOld x hx, hentOld y hy] at hxy
        exact hi.active_inj x y hx hy hxy
      · rw [hentOld x hx, hentNew] at hxy
        exact absurd hxy (hfresh x hx)
      · rw [hentOld y hy, hentNew] at hxy
        exact absurd hxy.symm (hfresh y hy)
      · rfl
    refCount := fun x hx => by
      rcases (hact x).1 hx with hx | rfl
      · rw [hofOld x hx]
        exact hi.refCount x hx
      · rw [hofNew, List.count_eq_zero.2 hnotheld]
        rfl
    pool := by
      intro p'' hp''
      rw [htp, Option.some.injEq] at hp''
      subst hp''
      rcases GenBlockPool.tryGet_eq_some htry with ⟨hfree, rfl, hp'⟩ | ⟨hfree, rfl, rfl, hltmax, hp'⟩
      · -- a released block, taken from the head of the free channel
        have hbf : b ∈ p.freeBlocksCh := hfree ▸ List.mem_cons_self
        have hnd := hfree ▸ hP.free_nodup
        have hlen' : t.blocks.length = s.blocks.length := by simp [htb]
        have hfreeBlk : ∀ c ∈ p'.freeBlocksCh, t.block c = s.block c := fun c hc => by
          rw [hblock, if_neg]
          rintro rfl
          exact (List.nodup_cons.1 hnd).1 hc
        exact {
          total := by rw [hp', hlen']; exact hP.total
          le_max := by rw [hp', hlen']; exact hP.le_max
          free_nodup := (List.nodup_cons.1 hnd).2
          free_lt := fun c hc => hlen' ▸ hP.free_lt c (hfree ▸ List.mem_cons_of_mem b hc)
          free_refCount := fun c hc => by
            rw [hfreeBlk c hc]
            exact hP.free_refCount c (hfree ▸ List.mem_cons_of_mem b hc)
          active_not_free := fun x hx => by
            rcases (hact x).1 hx with hx | rfl
            · rw [hentOld x hx]
              exact fun hc => hP.active_not_free x hx (hfree ▸ List.mem_cons_of_mem b hc)
            · rw [hentNew]
              exact (List.nodup_cons.1 hnd).1
          cover := fun c hc => by
            rcases hP.cover c (hlen' ▸ hc) with hf | ⟨x, hx, rfl⟩
            · rw [hfree, List.mem_cons] at hf
              rcases hf with rfl | hf
              · exact .inr ⟨s.entries.length, (hact _).2 (.inr rfl), by rw [hentNew]⟩
              · exact .inl hf
            · exact .inr ⟨x, (hact x).2 (.inl hx), by rw [hentOld x hx]⟩ }
      · -- a new block, at the end of the heap
        have hlen' : t.blocks.length = s.blocks.length + 1 := by simp [htb]
        exact {
          total := by rw [hp', hlen', hP.total]
          le_max := by
            rw [hlen', ← hP.total, hp']
            exact hltmax
          free_nodup := hp' ▸ hfree ▸ List.nodup_nil
          free_lt := fun c hc => by simp [hp', hfree] at hc
          free_refCount := fun c hc => by simp [hp', hfree] at hc
          active_not_free := fun x _ => by simp [hp', hfree]
          cover := fun c hc => by
            rw [hlen'] at hc
            rcases Nat.lt_succ_iff_lt_or_eq.1 hc with hc | rfl
            · rcases hP.cover c hc with hf | ⟨x, hx, rfl⟩
              · simp [hfree] at hf
              · exact .inr ⟨x, (hact x).2 (.inl hx), by rw [hentOld x hx]⟩
            · exact .inr ⟨s.entries.length, (hact _).2 (.inr rfl), by rw [hentNew]⟩ }
    le_next := by
      rw [htq, htn, List.length_append, List.length_singleton]
      have := hi.le_next
      omega
    starts := by
      rw [htq, htn, List.map_append, List.length_append, List.length_singleton,
        range'_push hi.le_next, List.map_append, ← hi.starts]
      congr 1
      · exact List.map_congr_left fun x hx => by rw [hofOld x (active_of_queue hx)]
      · simp [hofNew]
    data := fun x hx hd => by
      rw [htq, List.mem_append, List.mem_singleton] at hx
      rcases hx with hx | rfl
      · rw [hofOld x (active_of_queue hx)] at hd ⊢
        exact hi.data x hx hd
      · rw [hofNew] at hd
        cases hd }

/-- Giving back a reference on entry `e` lowers its block's count and
changes nothing else of the heap; the pool's side is the caller's. -/
theorem HeapInv.ofDecRef {e : ℕ} (hi : HeapInv cfg objectSize obj s (e :: h))
    (htq : t.blockQueue = s.blockQueue) (hte : t.entries = s.entries)
    (htb : t.blocks = s.blocks.set (s.entry e).block { s.blockOf e with refCount := h.count e })
    (htn : t.nextBlockIndexToPrefetch = s.nextBlockIndexToPrefetch)
    (hpool : ∀ p', t.blockPool = some p' → PoolInv t h p') :
    HeapInv cfg objectSize obj t h := by
  have hae : Active s (e :: h) e := active_of_held List.mem_cons_self
  have hent := entry_congr hte
  have hsub : ∀ x, Active t h x → Active s (e :: h) x := fun x hx => by
    rcases hx with hx | hx
    · exact .inl (htq ▸ hx)
    · exact .inr (List.mem_cons_of_mem e hx)
  have hof : ∀ x, t.blockOf x = if (s.entry e).block = (s.entry x).block then
      { s.blockOf e with refCount := h.count e } else s.blockOf x := fun x => by
    simp only [blockOf, hent]
    exact block_of_set htb (hi.active_lt e hae).2 _
  -- only the count of `e`'s block changes
  have hcontent : ∀ x, (t.blockOf x).state = (s.blockOf x).state ∧
      (t.blockOf x).absStartOff = (s.blockOf x).absStartOff ∧
      (t.blockOf x).buffer = (s.blockOf x).buffer := fun x => by
    rw [hof]
    split
    · rename_i hb
      simp [blockOf, hb]
    · exact ⟨rfl, rfl, rfl⟩
  exact {
    queue_nodup := htq ▸ hi.queue_nodup
    queue_fresh := fun x hx => hent x ▸ hi.queue_fresh x (htq ▸ hx)
    held_evicted := fun x hx hxq => hent x ▸ hi.held_evicted x (List.mem_cons_of_mem e hx) (htq ▸ hxq)
    held_downloaded := fun x hx => (hcontent x).1 ▸ hi.held_downloaded x (List.mem_cons_of_mem e hx)
    active_lt := fun x hx => by
      rw [hent, hte, htb, List.length_set]
      exact hi.active_lt x (hsub x hx)
    active_inj := fun x y hx hy hxy => by
      rw [hent, hent] at hxy
      exact hi.active_inj x y (hsub x hx) (hsub y hy) hxy
    refCount := fun x hx => by
      rw [hof]
      split
      · rename_i hb
        rw [hi.active_inj e x hae (hsub x hx) hb]
      · rename_i hb
        have hxe : e ≠ x := fun heq => hb (heq ▸ rfl)
        rw [hi.refCount x (hsub x hx), List.count_cons]
        simp [hxe]
    pool := hpool
    le_next := htq ▸ htn ▸ hi.le_next
    starts := by
      rw [htq, htn, ← hi.starts]
      exact List.map_congr_left fun x _ => (hcontent x).2.1
    data := fun x hx => by
      rw [(hcontent x).1, (hcontent x).2.1, (hcontent x).2.2]
      exact hi.data x (htq ▸ hx) }

/-- `t` differs from `s` at most in the heap, the queue, the pool, the
shared permits and the prefetch window. -/
structure SameCalls (s t : BufferedReader) : Prop where
  randomSeekCount : t.randomSeekCount = s.randomSeekCount
  inflightCallbackWg : t.inflightCallbackWg = s.inflightCallbackWg
  reading : t.reading = s.reading
  responses : t.responses = s.responses
  destroying : t.destroying = s.destroying
  panicked : t.panicked = s.panicked
  poolSome : t.blockPool.isSome = s.blockPool.isSome

theorem SameCalls.refl (s : BufferedReader) : SameCalls s s := ⟨rfl, rfl, rfl, rfl, rfl, rfl, rfl⟩

theorem SameCalls.trans {u : BufferedReader} (h₁ : SameCalls s t) (h₂ : SameCalls t u) :
    SameCalls s u :=
  ⟨h₂.randomSeekCount.trans h₁.randomSeekCount, h₂.inflightCallbackWg.trans h₁.inflightCallbackWg,
    h₂.reading.trans h₁.reading, h₂.responses.trans h₁.responses, h₂.destroying.trans h₁.destroying,
    h₂.panicked.trans h₁.panicked, h₂.poolSome.trans h₁.poolSome⟩

/-- **A reference is given back** by a callback: the block of an evicted
entry goes back to the pool, if there is one, with its last reference. -/
theorem HeapInv.giveBack {e : ℕ} (hi : HeapInv cfg objectSize obj s (e :: h)) (es : List ℕ) :
    ∃ t, callbackLoop (e :: es) s = callbackLoop es t ∧ HeapInv cfg objectSize obj t h ∧
      t.blockQueue = s.blockQueue ∧ t.entries = s.entries ∧
      t.nextBlockIndexToPrefetch = s.nextBlockIndexToPrefetch ∧ SameCalls s t := by
  have hae : Active s (e :: h) e := active_of_held List.mem_cons_self
  have hblt := (hi.active_lt e hae).2
  have hrc : (s.blockOf e).refCount = h.count e + 1 := by
    rw [hi.refCount e hae, List.count_cons_self]
  have hdec : (s.blockOf e).decRef =
      some ({ s.blockOf e with refCount := h.count e }, decide (h.count e = 0)) := by
    simp [PrefetchBlock.decRef, hrc]
  -- the block after `DecRef`; the other blocks and the free ones are as they were
  have hfree : ∀ p, s.blockPool = some p → ∀ c ∈ p.freeBlocksCh,
      ((s.setBlock (s.entry e).block { s.blockOf e with refCount := h.count e }).block c).refCount =
        (s.block c).refCount :=
    fun p hp c hc => by
      rw [block_setBlock hblt, if_neg]
      rintro rfl
      exact (hi.pool p hp).active_not_free e hae hc
  have hcalls : SameCalls s (s.setBlock (s.entry e).block { s.blockOf e with refCount := h.count e }) :=
    ⟨rfl, rfl, rfl, rfl, rfl, rfl, rfl⟩
  -- while `e` stays active, nothing goes back to the pool
  have hstay : (e ∈ h ∨ e ∈ s.blockQueue) → HeapInv cfg objectSize obj
      (s.setBlock (s.entry e).block { s.blockOf e with refCount := h.count e }) h := fun hstays =>
    hi.ofDecRef rfl rfl rfl rfl fun p hp => (hi.pool p hp).congr (fun x => by
        simp only [Active, setBlock_blockQueue, List.mem_cons]
        constructor
        · rintro (hx | hx)
          · exact .inl hx
          · exact .inr (.inr hx)
        · rintro (hx | rfl | hx)
          · exact .inl hx
          · exact hstays.elim .inr .inl
          · exact .inr hx)
      (fun _ => rfl) (length_setBlock _ _) (hfree p hp)
  by_cases hz : h.count e = 0
  · have hnh : e ∉ h := List.count_eq_zero.1 hz
    by_cases hev : (s.entry e).wasEvicted = true
    · have hnq : e ∉ s.blockQueue := fun hq => by
        rw [hi.queue_fresh e hq] at hev
        cases hev
      cases hpool : s.blockPool with
      | none =>
        refine ⟨s.setBlock (s.entry e).block { s.blockOf e with refCount := h.count e },
          by simp [callbackLoop, hdec, hz, hpool], hi.ofDecRef rfl rfl rfl rfl ?_, rfl, rfl, rfl, hcalls⟩
        intro p' hp'
        simp [hpool] at hp'
      | some p =>
        -- the last reference of an evicted entry: its block is released
        have hlt := hi.length_free_lt hpool hae
        have hP := hi.pool p hpool
        refine ⟨{ s.setBlock (s.entry e).block { s.blockOf e with refCount := h.count e } with
            blockPool := some { p with freeBlocksCh := p.freeBlocksCh ++ [(s.entry e).block] } },
          by simp [callbackLoop, hdec, hz, hev, hpool, release, GenBlockPool.release, hlt],
          hi.ofDecRef rfl rfl rfl rfl ?_, rfl, rfl, rfl,
          ⟨rfl, rfl, rfl, rfl, rfl, rfl, by simp [hpool]⟩⟩
        intro p' hp'
        simp only [Option.some.injEq] at hp'
        subst hp'
        refine hP.release hae hblt (fun x hx hb => hi.active_inj x e hx hae hb) (fun x => ?_)
          (fun _ => rfl) (length_setBlock _ _) (hfree p hpool) ?_
        · simp only [Active, List.mem_cons]
          constructor
          · rintro (hx | hx)
            · exact ⟨.inl hx, by rintro rfl; exact hnq hx⟩
            · exact ⟨.inr (.inr hx), by rintro rfl; exact hnh hx⟩
          · rintro ⟨hx | rfl | hx, hxe⟩
            · exact .inl hx
            · exact absurd rfl hxe
            · exact .inr hx
        · show ((s.setBlock (s.entry e).block
            { s.blockOf e with refCount := h.count e }).block (s.entry e).block).refCount = 0
          rw [block_setBlock hblt, if_pos rfl]
          exact hz
    · -- not evicted: the entry is still queued
      have hq : e ∈ s.blockQueue := by
        by_contra hq
        exact hev (hi.held_evicted e List.mem_cons_self hq)
      refine ⟨s.setBlock (s.entry e).block { s.blockOf e with refCount := h.count e }, ?_,
        hstay (.inr hq), rfl, rfl, rfl, hcalls⟩
      simp [callbackLoop, hdec, hev]
  · have hh : e ∈ h := List.count_pos_iff.1 (Nat.pos_of_ne_zero hz)
    refine ⟨s.setBlock (s.entry e).block { s.blockOf e with refCount := h.count e }, ?_,
      hstay (.inl hh), rfl, rfl, rfl, hcalls⟩
    simp [callbackLoop, hdec, hz]

end Moves

end BufferedReader

end BufferedRead

end GcsFuse
